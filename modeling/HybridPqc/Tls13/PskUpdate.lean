import HybridPqc.Tls.Codec
import HybridPqc.Tls13.Client

/-!
# Tls13.PskUpdate

`tls13_client_hello_again_psk_update` as
`0004-add-tls13-post-quantum-pre-shared-key.patch` leaves it: after a HelloRetryRequest, the client
keeps only the PSKs of the negotiated cipher suite.

The PSKs are in four parallel lists: two byte strings of encoded identities and keys, and two arrays
with one place each. The loop reads all four and collects what it keeps in temporary ones
(`ScanInv`); the end writes these back.

The patch shows neither the test at the start of the function nor the statements that copy the two
temporary strings back. They are parameters of the model, beside the encoders and decoders.
-/

namespace HybridPqc

open Tls

/-- A PSK of the client. -/
structure PskEntry where
  identity : Bytes
  obfuscatedTicketAge : UInt32
  key : Bytes
  type : PskIdentityType
  cipherSuite : Int

/-- The fields of `TLS_CONNECT` with the PSKs; of a buffer, the bytes up to its length field are in
use. -/
structure PskConn where
  cipherSuite : Int
  pskIdentities : Bytes
  pskIdentitiesLen : Nat
  pskKeys : Bytes
  pskKeysLen : Nat
  pskIdentityTypes : Nat → PskIdentityType
  pskCipherSuites : Nat → Int
  pskCipherSuitesCnt : Nat

/-- The local variables of the loop. `tmp_identity_types` is an array whose contents count up to
`tmp_cipher_suites_cnt`. -/
structure PskScan where
  pskIdentities : Bytes
  pskKeys : Bytes
  tmpIdentities : Bytes
  tmpKeys : Bytes
  tmpIdentityTypes : Nat → PskIdentityType
  tmpCipherSuitesCnt : Nat

/-- GmSSL code that the patched function uses and the patch does not show. -/
structure PskHelpers where
  /-- `tls13_psk_identity_to_bytes`, `tls13_psk_identity_from_bytes` -/
  pskIdentity : Codec (Bytes × UInt32)
  /-- `tls_uint8array_to_bytes`, `tls_uint8array_from_bytes` -/
  uint8array : Codec Bytes
  /-- The test before the first visible statement, which returns -1. -/
  refuses : PskConn → Bool
  /-- The statements before `conn->psk_keys_len = tmp_keys_len`, given the temporary strings. -/
  storeLists : Bytes → Bytes → PskConn → PskConn

section

variable (H : PskHelpers)

/-- The hidden statements copy the two strings back and set the length of the first. -/
def PskHelpers.Stores : Prop :=
  ∀ tmpIdentities tmpKeys conn, H.storeLists tmpIdentities tmpKeys conn =
    { conn with
      pskIdentities := conn.pskIdentities.write 0 tmpIdentities
      pskIdentitiesLen := tmpIdentities.length
      pskKeys := conn.pskKeys.write 0 tmpKeys }

/-- One pass of the loop; `none` is its `return -1`. -/
def pskUpdateStep (conn : PskConn) (i : Nat) (s : PskScan) : Option PskScan :=
  match H.pskIdentity.get s.pskIdentities with
  | none => none
  | some ((identity, obfuscatedTicketAge), pskIdentities) =>
    match H.uint8array.get s.pskKeys with
    | none => none
    | some (key, pskKeys) =>
      if conn.pskCipherSuites i = conn.cipherSuite then
        some {
          pskIdentities, pskKeys
          tmpIdentities :=
            s.tmpIdentities ++ H.pskIdentity.put (identity, obfuscatedTicketAge)
          tmpKeys := s.tmpKeys ++ H.uint8array.put key
          tmpIdentityTypes :=
            Function.update s.tmpIdentityTypes s.tmpCipherSuitesCnt (conn.pskIdentityTypes i)
          tmpCipherSuitesCnt := s.tmpCipherSuitesCnt + 1 }
      else some { s with pskIdentities, pskKeys }

/-- The loop, `psk_cipher_suites_cnt - i` passes before its end. -/
def pskUpdateLoop (conn : PskConn) : Nat → Nat → PskScan → Option PskScan
  | 0, _, s => some s
  | n + 1, i, s =>
    match pskUpdateStep H conn i s with
    | none => none
    | some s => pskUpdateLoop conn n (i + 1) s

/-- The loop that writes the two arrays back. -/
def pskStoreLoop (tmpIdentityTypes : Nat → PskIdentityType) : Nat → Nat → PskConn → PskConn
  | 0, _, conn => conn
  | n + 1, i, conn =>
    pskStoreLoop tmpIdentityTypes n (i + 1) { conn with
      pskCipherSuites := Function.update conn.pskCipherSuites i conn.cipherSuite
      pskIdentityTypes := Function.update conn.pskIdentityTypes i (tmpIdentityTypes i) }

/-- The end of the function: the collected lists take the place of the old ones. -/
def pskStore (s : PskScan) (conn : PskConn) : PskConn :=
  let conn := H.storeLists s.tmpIdentities s.tmpKeys conn
  let conn := { conn with pskKeysLen := s.tmpKeys.length }
  let conn := pskStoreLoop s.tmpIdentityTypes s.tmpCipherSuitesCnt 0 conn
  { conn with pskCipherSuitesCnt := s.tmpCipherSuitesCnt }

/-- `tls13_client_hello_again_psk_update`: whether it returns 1, and the connection; `stack` is what
is in `tmp_identity_types` before. -/
def tls13ClientHelloAgainPskUpdate (stack : Nat → PskIdentityType) (conn : PskConn) :
    Bool × PskConn :=
  if H.refuses conn then (false, conn)
  else
    match pskUpdateLoop H conn conn.pskCipherSuitesCnt 0
        ⟨conn.pskIdentities.take conn.pskIdentitiesLen, conn.pskKeys.take conn.pskKeysLen,
          [], [], stack, 0⟩ with
    | none => (false, conn)
    | some s =>
      if s.pskIdentities.length ≠ 0 ∨ s.pskKeys.length ≠ 0 then (false, conn)
      else (true, pskStore H s conn)

/-- The encoded identity, with its ticket age, of an entry. -/
def PskEntry.identityBytes (e : PskEntry) : Bytes :=
  H.pskIdentity.put (e.identity, e.obfuscatedTicketAge)

def PskEntry.keyBytes (e : PskEntry) : Bytes := H.uint8array.put e.key

/-- The entry can be encoded. -/
def PskEntry.Fits (e : PskEntry) : Prop :=
  H.pskIdentity.Fits (e.identity, e.obfuscatedTicketAge) ∧ H.uint8array.Fits e.key

/-- The four lists of a connection hold the entries, in this order, and nothing else. -/
structure PskConn.Holds (conn : PskConn) (entries : List PskEntry) : Prop where
  fits : ∀ e ∈ entries, e.Fits H
  identities : conn.pskIdentities.take conn.pskIdentitiesLen =
    entries.flatMap (PskEntry.identityBytes H)
  keys : conn.pskKeys.take conn.pskKeysLen = entries.flatMap (PskEntry.keyBytes H)
  types : Stands conn.pskIdentityTypes 0 (entries.map PskEntry.type)
  suites : Stands conn.pskCipherSuites 0 (entries.map PskEntry.cipherSuite)
  count : conn.pskCipherSuitesCnt = entries.length

/-- The buffers keep their size, and no list grows. -/
structure PskConn.NotGrown (conn conn' : PskConn) : Prop where
  identities : conn'.pskIdentities.length = conn.pskIdentities.length
  identitiesLen : conn'.pskIdentitiesLen ≤ conn.pskIdentitiesLen
  keys : conn'.pskKeys.length = conn.pskKeys.length
  keysLen : conn'.pskKeysLen ≤ conn.pskKeysLen
  count : conn'.pskCipherSuitesCnt ≤ conn.pskCipherSuitesCnt

/-- The entries of a cipher suite. -/
def ofSuite (suite : Int) (entries : List PskEntry) : List PskEntry :=
  entries.filter fun e => e.cipherSuite = suite

/-- What the loop has found and collected once it is done with some entries. -/
structure ScanInv (conn : PskConn) (done : List PskEntry) (s : PskScan) : Prop where
  fits : ∀ e ∈ done, e.Fits H
  identities : conn.pskIdentities.take conn.pskIdentitiesLen =
    done.flatMap (PskEntry.identityBytes H) ++ s.pskIdentities
  keys : conn.pskKeys.take conn.pskKeysLen = done.flatMap (PskEntry.keyBytes H) ++ s.pskKeys
  types : Stands conn.pskIdentityTypes 0 (done.map PskEntry.type)
  suites : Stands conn.pskCipherSuites 0 (done.map PskEntry.cipherSuite)
  tmpIdentities : s.tmpIdentities =
    (ofSuite conn.cipherSuite done).flatMap (PskEntry.identityBytes H)
  tmpKeys : s.tmpKeys = (ofSuite conn.cipherSuite done).flatMap (PskEntry.keyBytes H)
  tmpTypes : Stands s.tmpIdentityTypes 0 ((ofSuite conn.cipherSuite done).map PskEntry.type)
  tmpCount : s.tmpCipherSuitesCnt = (ofSuite conn.cipherSuite done).length

end

section

variable {H : PskHelpers} {conn : PskConn}

/-! ## The loop -/

/-- A pass succeeds on an encoded identity and an encoded key. -/
theorem pskUpdateStep_some {i : Nat} {s s' : PskScan} (h : pskUpdateStep H conn i s = some s') :
    ∃ e : PskEntry, e.Fits H ∧ s.pskIdentities = e.identityBytes H ++ s'.pskIdentities ∧
      s.pskKeys = e.keyBytes H ++ s'.pskKeys ∧ conn.pskIdentityTypes i = e.type ∧
      conn.pskCipherSuites i = e.cipherSuite := by
  simp only [pskUpdateStep] at h
  split at h
  · cases h
  rename_i identity age rest hid
  split at h
  · cases h
  rename_i key rest' hkey
  obtain ⟨hfit, hids⟩ := H.pskIdentity.put_get _ _ _ hid
  obtain ⟨hfit', hkeys⟩ := H.uint8array.put_get _ _ _ hkey
  refine ⟨⟨identity, age, key, conn.pskIdentityTypes i, conn.pskCipherSuites i⟩, ⟨hfit, hfit'⟩,
    ?_, ?_, rfl, rfl⟩
  · split at h
    · cases h
      exact hids
    · cases h
      exact hids
  · split at h
    · cases h
      exact hkeys
    · cases h
      exact hkeys

theorem ofSuite_snoc {suite : Int} {e : PskEntry} (h : e.cipherSuite = suite)
    (entries : List PskEntry) : ofSuite suite (entries ++ [e]) = ofSuite suite entries ++ [e] := by
  simp [ofSuite, h]

theorem ofSuite_snoc_other {suite : Int} {e : PskEntry} (h : e.cipherSuite ≠ suite)
    (entries : List PskEntry) : ofSuite suite (entries ++ [e]) = ofSuite suite entries := by
  simp [ofSuite, h]

theorem length_snoc (entries : List PskEntry) (e : PskEntry) :
    (entries ++ [e]).length = entries.length + 1 := by
  rw [List.length_append, List.length_singleton]

theorem flatMap_snoc (f : PskEntry → Bytes) (entries : List PskEntry) (e : PskEntry) :
    (entries ++ [e]).flatMap f = entries.flatMap f ++ f e := by
  simp

theorem stands_snoc_map {α : Type} {f : Nat → α} {g : PskEntry → α} {entries : List PskEntry}
    (h : Stands f 0 (entries.map g)) {e : PskEntry} (he : f entries.length = g e) :
    Stands f 0 ((entries ++ [e]).map g) := by
  rw [List.map_append]
  refine h.snoc ?_
  rw [List.length_map, Nat.zero_add]
  exact he

/-- A pass over an entry that stands at its place in all four lists. -/
theorem ScanInv.step {done : List PskEntry} {s : PskScan} (h : ScanInv H conn done s) {e : PskEntry}
    (hfit : e.Fits H) {identities keys : Bytes}
    (hid : s.pskIdentities = e.identityBytes H ++ identities)
    (hkey : s.pskKeys = e.keyBytes H ++ keys) (htype : conn.pskIdentityTypes done.length = e.type)
    (hsuite : conn.pskCipherSuites done.length = e.cipherSuite) :
    ∃ s', pskUpdateStep H conn done.length s = some s' ∧ s'.pskIdentities = identities ∧
      s'.pskKeys = keys ∧ ScanInv H conn (done ++ [e]) s' := by
  have hgetId : H.pskIdentity.get s.pskIdentities =
      some ((e.identity, e.obfuscatedTicketAge), identities) := by
    rw [hid]
    exact H.pskIdentity.get_put _ _ hfit.1
  have hgetKey : H.uint8array.get s.pskKeys = some (e.key, keys) := by
    rw [hkey]
    exact H.uint8array.get_put _ _ hfit.2
  have hfits : ∀ e' ∈ done ++ [e], e'.Fits H := by
    intro e' he'
    rcases List.mem_append.mp he' with he' | he'
    · exact h.fits e' he'
    · rw [List.mem_singleton.mp he']
      exact hfit
  have hids : conn.pskIdentities.take conn.pskIdentitiesLen =
      (done ++ [e]).flatMap (PskEntry.identityBytes H) ++ identities := by
    rw [h.identities, hid, flatMap_snoc, List.append_assoc]
  have hkeys : conn.pskKeys.take conn.pskKeysLen =
      (done ++ [e]).flatMap (PskEntry.keyBytes H) ++ keys := by
    rw [h.keys, hkey, flatMap_snoc, List.append_assoc]
  have htypes := stands_snoc_map h.types htype
  have hsuites := stands_snoc_map h.suites hsuite
  simp only [pskUpdateStep, hgetId, hgetKey, hsuite]
  by_cases hkept : e.cipherSuite = conn.cipherSuite
  · rw [if_pos hkept]
    refine ⟨_, rfl, rfl, rfl, hfits, hids, hkeys, htypes, hsuites, ?_, ?_, ?_, ?_⟩
    · rw [ofSuite_snoc hkept, flatMap_snoc, ← h.tmpIdentities]
      rfl
    · rw [ofSuite_snoc hkept, flatMap_snoc, ← h.tmpKeys]
      rfl
    · rw [ofSuite_snoc hkept]
      dsimp only
      have hold := h.tmpTypes.update (k := s.tmpCipherSuitesCnt)
        (by rw [List.length_map, h.tmpCount, Nat.zero_add]) (conn.pskIdentityTypes done.length)
      refine stands_snoc_map hold ?_
      rw [← h.tmpCount, Function.update_self, htype]
    · rw [ofSuite_snoc hkept, List.length_append, ← h.tmpCount]
      rfl
  · rw [if_neg hkept]
    refine ⟨_, rfl, rfl, rfl, hfits, hids, hkeys, htypes, hsuites, ?_, ?_, ?_, ?_⟩
    · rw [ofSuite_snoc_other hkept]
      exact h.tmpIdentities
    · rw [ofSuite_snoc_other hkept]
      exact h.tmpKeys
    · rw [ofSuite_snoc_other hkept]
      exact h.tmpTypes
    · rw [ofSuite_snoc_other hkept]
      exact h.tmpCount

theorem scanInv_start (stack : Nat → PskIdentityType) :
    ScanInv H conn [] ⟨conn.pskIdentities.take conn.pskIdentitiesLen,
      conn.pskKeys.take conn.pskKeysLen, [], [], stack, 0⟩ where
  fits := by simp
  identities := rfl
  keys := rfl
  types := stands_nil
  suites := stands_nil
  tmpIdentities := rfl
  tmpKeys := rfl
  tmpTypes := stands_nil
  tmpCount := rfl

/-- The loop gets through entries that are there, by induction on those left. -/
theorem ScanInv.run {todo done : List PskEntry} {s : PskScan} (h : ScanInv H conn done s)
    (hfit : ∀ e ∈ todo, e.Fits H) (hid : s.pskIdentities = todo.flatMap (PskEntry.identityBytes H))
    (hkey : s.pskKeys = todo.flatMap (PskEntry.keyBytes H))
    (htypes : Stands conn.pskIdentityTypes done.length (todo.map PskEntry.type))
    (hsuites : Stands conn.pskCipherSuites done.length (todo.map PskEntry.cipherSuite)) :
    ∃ s', pskUpdateLoop H conn todo.length done.length s = some s' ∧ s'.pskIdentities = [] ∧
      s'.pskKeys = [] ∧ ScanInv H conn (done ++ todo) s' := by
  induction todo generalizing done s with
  | nil =>
    refine ⟨s, rfl, hid, hkey, ?_⟩
    rw [List.append_nil]
    exact h
  | cons e todo ih =>
    rw [List.map_cons, stands_cons] at htypes hsuites
    obtain ⟨s₁, hstep, hid₁, hkey₁, h₁⟩ := h.step (hfit e List.mem_cons_self) hid hkey htypes.1
      hsuites.1
    rw [← length_snoc done e] at htypes hsuites
    obtain ⟨s', hrun, hid', hkey', h'⟩ := ih h₁
      (fun e' he' => hfit e' (List.mem_cons_of_mem _ he')) hid₁ hkey₁ htypes.2 hsuites.2
    refine ⟨s', ?_, hid', hkey', ?_⟩
    · rw [List.length_cons, pskUpdateLoop, hstep, ← length_snoc done e]
      exact hrun
    · rw [List.append_assoc] at h'
      exact h'

/-- What the loop gets through are entries. -/
theorem pskUpdateLoop_some {n : Nat} {done : List PskEntry} {s s' : PskScan}
    (h : ScanInv H conn done s) (hrun : pskUpdateLoop H conn n done.length s = some s') :
    ∃ todo : List PskEntry, todo.length = n ∧ ScanInv H conn (done ++ todo) s' := by
  induction n generalizing done s with
  | zero =>
    cases hrun
    refine ⟨[], rfl, ?_⟩
    rw [List.append_nil]
    exact h
  | succ n ih =>
    rw [pskUpdateLoop] at hrun
    cases hstep : pskUpdateStep H conn done.length s with
    | none =>
      rw [hstep] at hrun
      cases hrun
    | some s₁ =>
      rw [hstep] at hrun
      obtain ⟨e, hfit, hid, hkey, htype, hsuite⟩ := pskUpdateStep_some hstep
      obtain ⟨s₂, hstep', _, _, h₁⟩ := h.step hfit hid hkey htype hsuite
      rw [hstep] at hstep'
      cases hstep'
      dsimp only at hrun
      rw [← length_snoc done e] at hrun
      obtain ⟨todo, hn, h'⟩ := ih h₁ hrun
      refine ⟨e :: todo, by rw [List.length_cons, hn], ?_⟩
      rw [List.append_assoc] at h'
      exact h'

/-! ## Writing back -/

/-- The places from `i` on get the negotiated suite and the collected types. -/
theorem pskStoreLoop_eq (tmp : Nat → PskIdentityType) (n i : Nat) (conn : PskConn) :
    ∃ suites types, pskStoreLoop tmp n i conn =
        { conn with pskCipherSuites := suites, pskIdentityTypes := types } ∧
      (∀ j, i ≤ j → j < i + n → suites j = conn.cipherSuite ∧ types j = tmp j) ∧
      ∀ j, j < i → suites j = conn.pskCipherSuites j ∧ types j = conn.pskIdentityTypes j := by
  induction n generalizing i conn with
  | zero => exact ⟨_, _, rfl, fun j h h' => by omega, fun j _ => ⟨rfl, rfl⟩⟩
  | succ n ih =>
    obtain ⟨suites, types, heq, hin, hout⟩ := ih (i + 1) { conn with
      pskCipherSuites := Function.update conn.pskCipherSuites i conn.cipherSuite
      pskIdentityTypes := Function.update conn.pskIdentityTypes i (tmp i) }
    refine ⟨suites, types, heq, ?_, ?_⟩
    · intro j hj hjn
      by_cases hji : j = i
      · obtain ⟨hs, ht⟩ := hout j (by omega)
        rw [hs, ht, hji]
        exact ⟨Function.update_self _ _ _, Function.update_self _ _ _⟩
      · exact hin j (by omega) (by omega)
    · intro j hj
      obtain ⟨hs, ht⟩ := hout j (by omega)
      have hne : j ≠ i := by omega
      rw [hs, ht]
      exact ⟨Function.update_of_ne hne _ _, Function.update_of_ne hne _ _⟩

theorem flatMap_ofSuite_length_le (f : PskEntry → Bytes) (suite : Int) (entries : List PskEntry) :
    ((ofSuite suite entries).flatMap f).length ≤ (entries.flatMap f).length := by
  induction entries with
  | nil => exact Nat.le_refl _
  | cons e entries ih =>
    by_cases h : e.cipherSuite = suite
    · simp only [ofSuite, List.filter_cons, h, decide_true, if_true, List.flatMap_cons,
        List.length_append] at ih ⊢
      omega
    · simp only [ofSuite, List.filter_cons, h, decide_false, Bool.false_eq_true, if_false,
        List.flatMap_cons, List.length_append] at ih ⊢
      omega

/-- A buffer after a string was copied to its front. -/
theorem take_write (buf src : Bytes) : (buf.write 0 src).take src.length = src := by
  simp [Bytes.write]

/-- What `pskStore` leaves in every field. -/
theorem pskStore_eq (hS : H.Stores) (s : PskScan) (conn : PskConn) :
    ∃ suites types, pskStore H s conn =
        { cipherSuite := conn.cipherSuite
          pskIdentities := conn.pskIdentities.write 0 s.tmpIdentities
          pskIdentitiesLen := s.tmpIdentities.length
          pskKeys := conn.pskKeys.write 0 s.tmpKeys
          pskKeysLen := s.tmpKeys.length
          pskIdentityTypes := types
          pskCipherSuites := suites
          pskCipherSuitesCnt := s.tmpCipherSuitesCnt } ∧
      ∀ j, j < s.tmpCipherSuitesCnt →
        suites j = conn.cipherSuite ∧ types j = s.tmpIdentityTypes j := by
  simp only [pskStore, hS s.tmpIdentities s.tmpKeys conn]
  obtain ⟨suites, types, heq, hin, _⟩ := pskStoreLoop_eq s.tmpIdentityTypes s.tmpCipherSuitesCnt 0
    { conn with
      pskIdentities := conn.pskIdentities.write 0 s.tmpIdentities
      pskIdentitiesLen := s.tmpIdentities.length
      pskKeys := conn.pskKeys.write 0 s.tmpKeys
      pskKeysLen := s.tmpKeys.length }
  exact ⟨suites, types, by rw [heq], fun j hj => hin j (Nat.zero_le j) (by omega)⟩

/-- Once the loop has read everything, the collected lists hold the entries of the suite. -/
theorem ScanInv.store (hS : H.Stores) {entries : List PskEntry} {s : PskScan}
    (h : ScanInv H conn entries s) (hcount : conn.pskCipherSuitesCnt = entries.length) :
    (pskStore H s conn).Holds H (ofSuite conn.cipherSuite entries) ∧
      conn.NotGrown (pskStore H s conn) := by
  have hids := congrArg List.length h.identities
  have hkeys := congrArg List.length h.keys
  rw [List.length_append, List.length_take] at hids hkeys
  have hlei := flatMap_ofSuite_length_le (PskEntry.identityBytes H) conn.cipherSuite entries
  have hlek := flatMap_ofSuite_length_le (PskEntry.keyBytes H) conn.cipherSuite entries
  have hlec : (ofSuite conn.cipherSuite entries).length ≤ entries.length :=
    List.length_filter_le _ _
  rw [← h.tmpIdentities] at hlei
  rw [← h.tmpKeys] at hlek
  rw [← h.tmpCount] at hlec
  obtain ⟨suites, types, heq, hin⟩ := pskStore_eq hS s conn
  rw [heq]
  constructor
  · refine ⟨?_, ?_, ?_, ?_, ?_, h.tmpCount⟩
    · intro e he
      exact h.fits e (List.mem_filter.mp he).1
    · rw [← h.tmpIdentities]
      exact take_write _ _
    · rw [← h.tmpKeys]
      exact take_write _ _
    · refine h.tmpTypes.congr ?_
      intro j hj
      rw [List.length_map, ← h.tmpCount] at hj
      exact (hin (0 + j) (by omega)).2
    · intro j suite hj
      rw [List.getElem?_map, Option.map_eq_some_iff] at hj
      obtain ⟨e, he, rfl⟩ := hj
      have hlt := (List.getElem?_eq_some_iff.mp he).1
      have hmem := List.mem_filter.mp (List.mem_of_getElem? he)
      rw [← h.tmpCount] at hlt
      exact (hin (0 + j) (by omega)).1.trans (of_decide_eq_true hmem.2).symm
  · constructor
    · exact Bytes.write_length (by omega)
    · dsimp only
      omega
    · exact Bytes.write_length (by omega)
    · dsimp only
      omega
    · dsimp only
      omega

/-! ## The function -/

/-- A connection that holds entries keeps those of the negotiated suite. -/
theorem pskUpdate_of_holds (hS : H.Stores) (hr : H.refuses conn = false)
    (stack : Nat → PskIdentityType) {entries : List PskEntry} (h : conn.Holds H entries) :
    ∃ conn', tls13ClientHelloAgainPskUpdate H stack conn = (true, conn') ∧
      conn'.Holds H (ofSuite conn.cipherSuite entries) ∧ conn.NotGrown conn' := by
  obtain ⟨s, hrun, hid, hkey, hinv⟩ :=
    (scanInv_start stack).run h.fits h.identities h.keys h.types h.suites
  rw [List.length_nil, ← h.count] at hrun
  obtain ⟨hholds, hgrown⟩ := hinv.store hS h.count
  refine ⟨pskStore H s conn, ?_, hholds, hgrown⟩
  simp [tls13ClientHelloAgainPskUpdate, hr, hrun, hid, hkey]

/-- A call that returns 1 has found entries in all four lists. -/
theorem pskUpdate_true (hS : H.Stores) {stack : Nat → PskIdentityType} {conn' : PskConn}
    (h : tls13ClientHelloAgainPskUpdate H stack conn = (true, conn')) :
    ∃ entries, conn.Holds H entries ∧ conn'.Holds H (ofSuite conn.cipherSuite entries) ∧
      conn.NotGrown conn' := by
  simp only [tls13ClientHelloAgainPskUpdate] at h
  split at h
  · cases h
  split at h
  · cases h
  rename_i s hrun
  split at h
  · cases h
  rename_i hrest
  cases h
  simp only [not_or, not_not, List.length_eq_zero_iff] at hrest
  obtain ⟨entries, hlen, hinv⟩ := pskUpdateLoop_some (scanInv_start stack) hrun
  rw [List.nil_append] at hinv
  obtain ⟨hholds, hgrown⟩ := hinv.store hS hlen.symm
  refine ⟨entries, ?_, hholds, hgrown⟩
  refine ⟨hinv.fits, ?_, ?_, hinv.types, hinv.suites, hlen.symm⟩
  · rw [hinv.identities, hrest.1, List.append_nil]
  · rw [hinv.keys, hrest.2, List.append_nil]

theorem pskUpdate_false {stack : Nat → PskIdentityType}
    (h : (tls13ClientHelloAgainPskUpdate H stack conn).1 = false) :
    (tls13ClientHelloAgainPskUpdate H stack conn).2 = conn := by
  simp only [tls13ClientHelloAgainPskUpdate] at h ⊢
  split
  · rfl
  rename_i hr
  rw [if_neg hr] at h
  split
  · rfl
  rename_i s hrun
  rw [hrun] at h
  dsimp only at h
  split
  · rfl
  · rename_i hrest
    rw [if_neg hrest] at h
    cases h

/-- The identity a server selects is looked up among the entries held. -/
theorem useSelectedIdentity_holds {entries : List PskEntry} (h : conn.Holds H entries)
    {x : ServerHelloExts} (hx : x.postQuantumPreSharedKey = true) {c : ClientConn}
    (hcount : c.pskCipherSuitesCnt = conn.pskCipherSuitesCnt)
    (htypes : c.pskIdentityTypes = conn.pskIdentityTypes) (k : Nat) :
    (useSelectedIdentity x c (some k)).isSome = true ↔
      ∃ e, entries[k]? = some e ∧ e.type = .external := by
  simp only [useSelectedIdentity, hx, if_true, hcount, htypes, h.count]
  constructor
  · intro hsome
    split at hsome
    · cases hsome
    · rename_i hk
      simp only [not_or, Nat.not_le, not_not] at hk
      have hget := List.getElem?_eq_getElem hk.1
      refine ⟨_, hget, ?_⟩
      have htype := h.types k entries[k].type (by rw [List.getElem?_map, hget]; rfl)
      rw [Nat.zero_add] at htype
      rw [← htype]
      exact hk.2
  · intro hex
    obtain ⟨e, he, htype⟩ := hex
    have hlt := (List.getElem?_eq_some_iff.mp he).1
    have hk := h.types k e.type (by rw [List.getElem?_map, he]; rfl)
    rw [Nat.zero_add] at hk
    rw [if_neg (by simp [hk, htype, hlt])]
    rfl

end

/-- **HelloRetryRequest and the PSKs.** When the call returns 1 the four lists held entries and now
hold those of the negotiated suite, in their order; when it returns -1 nothing has changed; it
returns 1 on every connection that holds entries and passes the first test; no list outgrows its
buffer; and the type a server's choice is checked against is that of the entry chosen. -/
theorem psk_update_aligned {H : PskHelpers} (hS : H.Stores) :
    (∀ stack conn entries, H.refuses conn = false → conn.Holds H entries →
      ∃ conn', tls13ClientHelloAgainPskUpdate H stack conn = (true, conn') ∧
        conn'.Holds H (ofSuite conn.cipherSuite entries) ∧ conn.NotGrown conn') ∧
    (∀ stack conn conn', tls13ClientHelloAgainPskUpdate H stack conn = (true, conn') →
      ∃ entries, conn.Holds H entries ∧ conn'.Holds H (ofSuite conn.cipherSuite entries) ∧
        conn.NotGrown conn') ∧
    (∀ stack conn, (tls13ClientHelloAgainPskUpdate H stack conn).1 = false →
      (tls13ClientHelloAgainPskUpdate H stack conn).2 = conn) ∧
    (∀ (conn : PskConn) entries (x : ServerHelloExts) (c : ClientConn) k, conn.Holds H entries →
      x.postQuantumPreSharedKey = true → c.pskCipherSuitesCnt = conn.pskCipherSuitesCnt →
      c.pskIdentityTypes = conn.pskIdentityTypes →
      ((useSelectedIdentity x c (some k)).isSome = true ↔
        ∃ e, entries[k]? = some e ∧ e.type = .external)) :=
  ⟨fun stack _ _ hr h => pskUpdate_of_holds hS hr stack h, fun _ _ _ => pskUpdate_true hS,
    fun _ _ => pskUpdate_false,
    fun _ _ _ _ k h hx hcount htypes => useSelectedIdentity_holds h hx hcount htypes k⟩

namespace Toy

def pskHelpers : PskHelpers where
  pskIdentity := Codec.vector16.pair Codec.u32
  uint8array := Codec.vector8
  refuses _ := false
  storeLists tmpIdentities tmpKeys conn := { conn with
    pskIdentities := conn.pskIdentities.write 0 tmpIdentities
    pskIdentitiesLen := tmpIdentities.length
    pskKeys := conn.pskKeys.write 0 tmpKeys }

theorem pskHelpers_stores : pskHelpers.Stores := fun _ _ _ => rfl

/-- A ticket for one suite and a configured key for another. -/
def ticket : PskEntry := ⟨[0x01, 0x02], 7, [0x0a], .resumption, 0x1301⟩
def configured : PskEntry := ⟨[0x03], 0, [0x0b, 0x0c], .external, 0x00c6⟩

/-- A connection with both, on which the second suite was negotiated. -/
def pskConn : PskConn where
  cipherSuite := 0x00c6
  pskIdentities := [ticket, configured].flatMap (PskEntry.identityBytes pskHelpers)
  pskIdentitiesLen := ([ticket, configured].flatMap (PskEntry.identityBytes pskHelpers)).length
  pskKeys := [ticket, configured].flatMap (PskEntry.keyBytes pskHelpers)
  pskKeysLen := ([ticket, configured].flatMap (PskEntry.keyBytes pskHelpers)).length
  pskIdentityTypes i := if i = 0 then .resumption else .external
  pskCipherSuites i := if i = 0 then 0x1301 else 0x00c6
  pskCipherSuitesCnt := 2

theorem pskConn_holds : pskConn.Holds pskHelpers [ticket, configured] where
  fits := by
    intro e he
    simp only [List.mem_cons, List.not_mem_nil, or_false] at he
    rcases he with rfl | rfl
    · exact ⟨⟨show 2 < 65536 by omega, trivial⟩, show 1 < 256 by omega⟩
    · exact ⟨⟨show 1 < 65536 by omega, trivial⟩, show 2 < 256 by omega⟩
  identities := List.take_length
  keys := List.take_length
  types := stands_cons.mpr ⟨rfl, stands_cons.mpr ⟨rfl, stands_nil⟩⟩
  suites := stands_cons.mpr ⟨rfl, stands_cons.mpr ⟨rfl, stands_nil⟩⟩
  count := rfl

end Toy

/-- The configured key is what is left. -/
theorem psk_update_aligned_configured :
    ∃ conn', tls13ClientHelloAgainPskUpdate Toy.pskHelpers (fun _ => .resumption) Toy.pskConn =
        (true, conn') ∧ conn'.Holds Toy.pskHelpers [Toy.configured] := by
  obtain ⟨conn', hrun, hholds, _⟩ := (psk_update_aligned Toy.pskHelpers_stores).1
    (fun _ => .resumption) Toy.pskConn _ rfl Toy.pskConn_holds
  exact ⟨conn', hrun, hholds⟩

end HybridPqc
