import HybridPqc.Memory.Adapter

/-!
# Memory.Session

Any sequence of calls of a program that creates, verifies and releases certificates.

The program keeps its certificates in a table; an argument names a place, and an empty place is a
`NULL` argument. `session_accounted`: at the end everything the library has allocated is released
once, whatever request failed on the way; what was accepted is acceptable; and with memory enough
the calls return what the functions without memory return.
-/

namespace HybridPqc

namespace Memory

open Refs
open Refs.Act

section

variable {PKey : Type}

inductive Call (PKey : Type) where
  | createRoot (caPrivateKey : HybridPrivateKey PKey) (caPublicKey : HybridPublicKey PKey)
      (commonName : CString) (rnd : Bytes)
  | createServer (caPrivateKey : HybridPrivateKey PKey)
      (caPublicKey serverPublicKey : HybridPublicKey PKey) (issuer : Nat) (commonName : CString)
      (dnsName : Option CString) (rnd : Bytes)
  | createSm2Encryption (caPrivateKey : HybridPrivateKey PKey) (caPublicKey : HybridPublicKey PKey)
      (serverSm2PublicKey : PKey) (issuer : Nat) (commonName : CString) (rnd : Bytes)
  | verifyChain (root server : Nat)
  | verifyEncryptionCertificate (certificate issuer : Nat)
  | verifyCallback (certChainDer : CArg) (sm2PublicKey : Bytes)
      (config : TlcpHybridCertAdapterConfig)
  | free (certificate : Nat)

/-- What a call returns to the program, with the certificates it was given. -/
inductive Event where
  | created (certificate : Option X509)
  | chain (root server : Option X509) (result : HybridChainVerifyResult)
  | encryption (certificate issuer : Option X509) (result : HybridCertVerifyResult)
  | callback (certChainDer : CArg) (sm2PublicKey : Bytes) (config : TlcpHybridCertAdapterConfig)
      (outcome : CallbackOutcome)
  | freed

/-- What stands at a place of the table. -/
def at_ {α : Type} (table : List (Option α)) (i : Nat) : Option α := (table[i]?).join

variable (L : IssueLib PKey)

/-! ## Without memory -/

/-- One call at the time `now`: the table after it, and what it returns. -/
def plainCall (now : Int) (table : List (Option X509)) :
    Call PKey → List (Option X509) × Event
  | .createRoot caPrivateKey caPublicKey commonName rnd =>
    let c := HybridPqc.hybridX509CreateRoot L now caPrivateKey caPublicKey commonName rnd
    (table ++ [c], .created c)
  | .createServer caPrivateKey caPublicKey serverPublicKey issuer commonName dnsName rnd =>
    let c := (at_ table issuer).bind fun issuer => HybridPqc.hybridX509CreateServer L now
      caPrivateKey caPublicKey serverPublicKey issuer commonName dnsName rnd
    (table ++ [c], .created c)
  | .createSm2Encryption caPrivateKey caPublicKey serverSm2PublicKey issuer commonName rnd =>
    let c := (at_ table issuer).bind fun issuer => HybridPqc.hybridX509CreateSm2Encryption L now
      caPrivateKey caPublicKey serverSm2PublicKey issuer commonName rnd
    (table ++ [c], .created c)
  | .verifyChain root server =>
    (table, .chain (at_ table root) (at_ table server)
      (HybridPqc.hybridVerifyChain L.toOpenssl now (at_ table root) (at_ table server)))
  | .verifyEncryptionCertificate certificate issuer =>
    (table, .encryption (at_ table certificate) (at_ table issuer)
      (HybridPqc.hybridVerifyEncryptionCertificate L.toOpenssl now (at_ table certificate)
        (at_ table issuer)))
  | .verifyCallback certChainDer sm2PublicKey config =>
    (table, .callback certChainDer sm2PublicKey config
      (HybridPqc.tlcpHybridCertGmsslVerifyCallback L.toOpenssl now certChainDer
        (some sm2PublicKey) (some config)))
  | .free certificate => (table.set certificate none, .freed)

def plainCalls (table : List (Option X509)) :
    List (Int × Call PKey) → List (Option X509) × List (Int × Event)
  | [] => (table, [])
  | (now, call) :: calls =>
    let r := plainCall L now table call
    let rest := plainCalls r.1 calls
    (rest.1, (now, r.2) :: rest.2)

/-! ## With memory -/

variable {plan : Nat → Bool}

abbrev Table := List (Option (Obj X509))

def createdFrom (table : Table) (issuer : Nat)
    (create : Obj X509 → Act plan (Option (Obj X509))) : Act plan (Option (Obj X509)) :=
  match at_ table issuer with
  | none => return none
  | some issuer => create issuer

def runCall (now : Int) (table : Table) : Call PKey → Act plan (Table × Event)
  | .createRoot caPrivateKey caPublicKey commonName rnd => do
    let c ← hybridX509CreateRoot L now caPrivateKey caPublicKey commonName rnd
    return (table ++ [c], .created (c.map Obj.val))
  | .createServer caPrivateKey caPublicKey serverPublicKey issuer commonName dnsName rnd => do
    let c ← createdFrom table issuer fun issuer => hybridX509CreateServer L now caPrivateKey
      caPublicKey serverPublicKey issuer commonName dnsName rnd
    return (table ++ [c], .created (c.map Obj.val))
  | .createSm2Encryption caPrivateKey caPublicKey serverSm2PublicKey issuer commonName rnd => do
    let c ← createdFrom table issuer fun issuer => hybridX509CreateSm2Encryption L now caPrivateKey
      caPublicKey serverSm2PublicKey issuer commonName rnd
    return (table ++ [c], .created (c.map Obj.val))
  | .verifyChain root server => do
    let result ← hybridVerifyChain L.toOpenssl now (at_ table root) (at_ table server)
    return (table, .chain ((at_ table root).map Obj.val) ((at_ table server).map Obj.val) result)
  | .verifyEncryptionCertificate certificate issuer => do
    let result ← hybridVerifyEncryptionCertificate L.toOpenssl now (at_ table certificate)
      (at_ table issuer)
    return (table, .encryption ((at_ table certificate).map Obj.val)
      ((at_ table issuer).map Obj.val) result)
  | .verifyCallback certChainDer sm2PublicKey config => do
    let outcome ← tlcpHybridCertGmsslVerifyCallback L.toOpenssl now certChainDer
      (some sm2PublicKey) (some config)
    return (table, .callback certChainDer sm2PublicKey config outcome)
  | .free certificate => do
    free (at_ table certificate)
    return (table.set certificate none, .freed)

def runCalls (table : Table) : List (Int × Call PKey) → Act plan (Table × List (Int × Event))
  | [] => return (table, [])
  | (now, call) :: calls => do
    let r ← runCall L now table call
    let rest ← runCalls r.1 calls
    return (rest.1, (now, r.2) :: rest.2)

def freeAll : Table → Act plan Unit
  | [] => return ()
  | certificate :: table => do
    free certificate
    freeAll table

/-- The calls, and the release of what is left in the table. -/
def session (calls : List (Int × Call PKey)) : Act plan (List (Int × Event)) := do
  let r ← runCalls L [] calls
  freeAll r.1
  return r.2

/-! ## What may be returned -/

/-- A certificate that one of the three functions creates, from an issuer that was created too. -/
inductive Issued : X509 → Prop
  | root {now : Int} {caPrivateKey : HybridPrivateKey PKey} {caPublicKey : HybridPublicKey PKey}
      {commonName : CString} {rnd : Bytes} {c : X509}
      (h : HybridPqc.hybridX509CreateRoot L now caPrivateKey caPublicKey commonName rnd = some c) :
      Issued c
  | server {now : Int} {caPrivateKey : HybridPrivateKey PKey}
      {caPublicKey serverPublicKey : HybridPublicKey PKey} {issuer : X509} {commonName : CString}
      {dnsName : Option CString} {rnd : Bytes} {c : X509} (hi : Issued issuer)
      (h : HybridPqc.hybridX509CreateServer L now caPrivateKey caPublicKey serverPublicKey issuer
        commonName dnsName rnd = some c) : Issued c
  | encryption {now : Int} {caPrivateKey : HybridPrivateKey PKey}
      {caPublicKey : HybridPublicKey PKey} {serverSm2PublicKey : PKey} {issuer : X509}
      {commonName : CString} {rnd : Bytes} {c : X509} (hi : Issued issuer)
      (h : HybridPqc.hybridX509CreateSm2Encryption L now caPrivateKey caPublicKey
        serverSm2PublicKey issuer commonName rnd = some c) : Issued c

/-- A certificate that is returned is one that was asked for, and what is accepted at `now` is
acceptable then. -/
def Event.Sound (now : Int) : Event → Prop
  | .created certificate => ∀ c, certificate = some c → Issued L c
  | .chain root server result => result.chainValid = true →
      ∃ r s, root = some r ∧ server = some s ∧ Issued L r ∧ Issued L s ∧
        ChainAccepted L.toOpenssl now r s
  | .encryption certificate issuer result => result.certificateValid = true →
      ∃ c i, certificate = some c ∧ issuer = some i ∧ Issued L c ∧ Issued L i ∧
        ∃ key, EncryptionAccepted L.toOpenssl now i c key
  | .callback certChainDer _ config outcome => outcome.result = .valid →
      ∃ root s e, DualAccepted L.toOpenssl now config certChainDer root s e ∧
        outcome.sm2PublicKey = sm2Component L.toOpenssl s
  | .freed => True

end

/-! ## The table -/

section

def held (table : Table) : Multiset Nat := (table.map Obj.ownedOpt).sum

def vals (table : Table) : List (Option X509) := table.map (Option.map Obj.val)

theorem held_append (table : Table) (c : Option (Obj X509)) :
    held (table ++ [c]) = held table + Obj.ownedOpt c := by
  simp [held]

theorem vals_append (table : Table) (c : Option (Obj X509)) :
    vals (table ++ [c]) = vals table ++ [c.map Obj.val] := by
  simp [vals]

theorem at_vals (table : Table) (i : Nat) : at_ (vals table) i = (at_ table i).map Obj.val := by
  simp only [at_, vals, List.getElem?_map]
  cases table[i]? with
  | none => rfl
  | some c => rfl

theorem mem_of_at {α : Type} {table : List (Option α)} {i : Nat} {c : α}
    (h : at_ table i = some c) : some c ∈ table := by
  rw [at_, Option.join_eq_some_iff] at h
  exact List.mem_of_getElem? h

theorem vals_set (table : Table) (i : Nat) : vals (table.set i none) = (vals table).set i none := by
  simp [vals, List.map_set]

/-- What stands at a place, and the rest. -/
theorem held_set (table : Table) (i : Nat) :
    held table = Obj.ownedOpt (at_ table i) + held (table.set i none) := by
  induction table generalizing i with
  | nil => simp [held, at_]
  | cons c table ih =>
    cases i with
    | zero => simp [held, at_]
    | succ i =>
      have h := ih i
      simp only [held, at_, List.set_cons_succ, List.map_cons, List.sum_cons,
        List.getElem?_cons_succ] at h ⊢
      rw [h]
      ac_rfl

theorem at_le (table : Table) (i : Nat) : Obj.ownedOpt (at_ table i) ≤ held table := by
  rw [held_set table i]
  exact Multiset.le_add_right _ _

theorem freeAll_spec {plan : Nat → Bool} (table : Table) :
    Spec plan (held table) (freeAll table : Act plan Unit) fun _ R => R = 0 := by
  induction table with
  | nil => exact .ret rfl
  | cons c table ih =>
    refine (free_spec c).release (held table) (by simp [held]) ?_
    exact ih

end

/-! ## Calls -/

section

variable {PKey : Type} (L : IssueLib PKey) {plan : Nat → Bool}

/-- Every certificate of the table was issued. -/
def AllIssued (table : List (Option X509)) : Prop := ∀ c, some c ∈ table → Issued L c

variable {L}

theorem AllIssued.append {table : List (Option X509)} {o : Option X509} (h : AllIssued L table)
    (ho : ∀ c, o = some c → Issued L c) : AllIssued L (table ++ [o]) := by
  intro c hc
  rcases List.mem_append.mp hc with hc | hc
  · exact h c hc
  · exact ho c (List.mem_singleton.mp hc).symm

theorem AllIssued.set {table : List (Option X509)} (h : AllIssued L table) (i : Nat) :
    AllIssued L (table.set i none) := by
  intro c hc
  rcases List.mem_or_eq_of_mem_set hc with hc | hc
  · exact h c hc
  · cases hc

variable (L)

/-- A new certificate at the end of the table. -/
theorem created_spec {table : Table} {x : Act plan (Option (Obj X509))} {o : Option X509}
    (hI : AllIssued L (vals table))
    (hx : Spec plan (held table) x (Beside (held table) (Yields plan o)))
    (ho : ∀ c, o = some c → Issued L c) (now : Int) :
    Spec plan (held table)
      (do
        let c ← x
        return (table ++ [c], Event.created (c.map Obj.val)) : Act plan (Table × Event))
      fun r R => R = held r.1 ∧ AllIssued L (vals r.1) ∧ r.2.Sound L now ∧
        ((vals r.1, r.2) = (vals table ++ [o], .created o) ∨ Fails plan) := by
  refine hx.bind ?_
  rintro c _ ⟨R, hc, rfl⟩
  have hissued : ∀ v, c.map Obj.val = some v → Issued L v := by
    intro v hv
    rcases hc.val_map with h | ⟨rfl, _⟩
    · exact ho v (h.symm.trans hv)
    · cases hv
  refine .ret ⟨?_, ?_, hissued, ?_⟩
  · rw [held_append, hc.owned, add_comm]
  · rw [vals_append]
    exact hI.append hissued
  · rcases hc.val_map with h | ⟨_, hfail⟩
    · refine Or.inl ?_
      rw [vals_append, h]
    · exact Or.inr hfail

/-- A certificate for an issuer that may be missing. -/
theorem createdFrom_spec (table : Table) (issuer : Nat)
    {create : Obj X509 → Act plan (Option (Obj X509))} {o : X509 → Option X509}
    (hcreate : ∀ p, Spec plan p.owned (create p) (Beside p.owned (Yields plan (o p.val)))) :
    Spec plan (held table) (createdFrom table issuer create)
      (Beside (held table) (Yields plan ((at_ (vals table) issuer).bind o))) := by
  rw [at_vals]
  simp only [createdFrom]
  cases h : at_ table issuer with
  | none => exact .ret ⟨0, .null (Or.inl rfl), (zero_add _).symm⟩
  | some p =>
    obtain ⟨S, hS⟩ := Multiset.le_iff_exists_add.mp (h ▸ at_le table issuer)
    rw [Obj.ownedOpt_some] at hS
    rw [hS]
    refine ((hcreate p).frame S).mono ?_
    rintro c _ ⟨_, ⟨R, hc, rfl⟩, rfl⟩
    exact ⟨R, hc, add_assoc _ _ _⟩

/-- A verification leaves the table as it is. -/
theorem verified_spec {β : Type} {table : Table} {x : Act plan β} {le : β → β → Prop} {v : β}
    {event : β → Event} (hI : AllIssued L (vals table))
    (hx : Spec plan (held table) x (Beside (held table) (Reports plan le v))) (now : Int)
    (hsound : ∀ r, le r v → (event r).Sound L now) :
    Spec plan (held table)
      (do
        let r ← x
        return (table, event r) : Act plan (Table × Event))
      fun r R => R = held r.1 ∧ AllIssued L (vals r.1) ∧ r.2.Sound L now ∧
        ((vals r.1, r.2) = (vals table, event v) ∨ Fails plan) := by
  refine hx.bind ?_
  rintro r _ ⟨_, ⟨rfl, hle, hfull⟩, rfl⟩
  refine .ret ⟨zero_add _, hI, hsound r hle, hfull.imp_left ?_⟩
  rintro rfl
  rfl

theorem runCall_spec (now : Int) (table : Table) (call : Call PKey)
    (hI : AllIssued L (vals table)) :
    Spec plan (held table) (runCall L now table call) fun r R =>
      R = held r.1 ∧ AllIssued L (vals r.1) ∧ r.2.Sound L now ∧
        ((vals r.1, r.2) = plainCall L now (vals table) call ∨ Fails plan) := by
  cases call with
  | createRoot caPrivateKey caPublicKey commonName rnd =>
    refine created_spec L hI ?_ (fun c => .root) now
    exact ((hybridX509CreateRoot_spec L now caPrivateKey caPublicKey commonName rnd).frame _).pre
      (zero_add _).symm
  | createServer caPrivateKey caPublicKey serverPublicKey issuer commonName dnsName rnd =>
    refine created_spec L hI (createdFrom_spec table issuer fun p => hybridX509CreateServer_spec L
      now caPrivateKey caPublicKey serverPublicKey p commonName dnsName rnd) ?_ now
    intro c hc
    obtain ⟨p, hp, hc⟩ := Option.bind_eq_some_iff.mp hc
    exact .server (hI p (mem_of_at hp)) hc
  | createSm2Encryption caPrivateKey caPublicKey serverSm2PublicKey issuer commonName rnd =>
    refine created_spec L hI (createdFrom_spec table issuer fun p =>
      hybridX509CreateSm2Encryption_spec L now caPrivateKey caPublicKey serverSm2PublicKey p
        commonName rnd) ?_ now
    intro c hc
    obtain ⟨p, hp, hc⟩ := Option.bind_eq_some_iff.mp hc
    exact .encryption (hI p (mem_of_at hp)) hc
  | verifyChain root server =>
    simp only [plainCall, at_vals]
    refine verified_spec L hI (hybridVerifyChain_spec L.toOpenssl now (at_le table root)
      (at_le table server)) now ?_
    intro r hle hvalid
    obtain ⟨a, b, ha, hb, haccepted⟩ := hybridVerifyChain_valid.mp (hle.chainValid hvalid)
    exact ⟨a, b, ha, hb, hI a (mem_of_at ((at_vals _ _).trans ha)),
      hI b (mem_of_at ((at_vals _ _).trans hb)), haccepted⟩
  | verifyEncryptionCertificate certificate issuer =>
    simp only [plainCall, at_vals]
    refine verified_spec L hI (hybridVerifyEncryptionCertificate_spec L.toOpenssl now
      (at_le table certificate) (at_le table issuer)) now ?_
    intro r hle hvalid
    have hv := hle (·.certificateValid) (by simp [certFlags]) hvalid
    cases hc : (at_ table certificate).map Obj.val with
    | none =>
      rw [hc] at hv
      cases hv
    | some c =>
      cases hi : (at_ table issuer).map Obj.val with
      | none =>
        rw [hc, hi] at hv
        cases hv
      | some i =>
        rw [hc, hi] at hv
        exact ⟨c, i, rfl, rfl, hI c (mem_of_at ((at_vals _ _).trans hc)),
          hI i (mem_of_at ((at_vals _ _).trans hi)),
          hybridVerifyEncryptionCertificate_valid.mp hv⟩
  | verifyCallback chain output config =>
    refine verified_spec L hI (((tlcpHybridCertGmsslVerifyCallback_spec L.toOpenssl now chain
      (some output) (some config)).frame _).pre (zero_add _).symm) now ?_
    intro r hle hvalid
    obtain ⟨hv, hkey⟩ := hle.valid hvalid
    obtain ⟨root, s, e, haccepted, hcomponent⟩ := callback_accepted hv
    exact ⟨root, s, e, haccepted, hkey.trans hcomponent⟩
  | free certificate =>
    refine (free_spec (at_ table certificate)).release (held (table.set certificate none))
      (held_set table certificate) ?_
    refine .ret ⟨rfl, ?_, trivial, Or.inl ?_⟩
    · rw [vals_set]
      exact hI.set certificate
    · rw [vals_set]
      rfl

theorem runCalls_spec (calls : List (Int × Call PKey)) (table : Table)
    (hI : AllIssued L (vals table)) :
    Spec plan (held table) (runCalls L table calls) fun r R =>
      R = held r.1 ∧ (∀ e ∈ r.2, e.2.Sound L e.1) ∧
        (r.2 = (plainCalls L (vals table) calls).2 ∨ Fails plan) := by
  induction calls generalizing table with
  | nil => exact .ret ⟨rfl, by simp, Or.inl rfl⟩
  | cons call calls ih =>
    obtain ⟨now, call⟩ := call
    refine (runCall_spec L now table call hI).bind ?_
    rintro ⟨table', event⟩ _ ⟨rfl, hI', hsound, hplain⟩
    refine (ih table' hI').bind ?_
    rintro ⟨last, events⟩ _ ⟨rfl, hsounds, hplains⟩
    refine .ret ⟨rfl, ?_, ?_⟩
    · intro e he
      rcases List.mem_cons.mp he with rfl | he
      · exact hsound
      · exact hsounds e he
    · rcases hplain with h | hfail
      · refine hplains.imp_left ?_
        intro h'
        obtain ⟨htable, hevent⟩ := Prod.ext_iff.mp h
        rw [plainCalls, ← htable, ← hevent]
        exact congrArg ((now, event) :: ·) h'
      · exact Or.inr hfail

theorem session_spec (calls : List (Int × Call PKey)) :
    Spec plan 0 (session L calls) fun events R => R = 0 ∧ (∀ e ∈ events, e.2.Sound L e.1) ∧
      (events = (plainCalls L [] calls).2 ∨ Fails plan) := by
  refine (runCalls_spec L calls [] ?_).bind ?_
  · intro c hc
    cases hc
  rintro r _ ⟨rfl, hsound, hplain⟩
  refine (freeAll_spec r.1).bind ?_
  rintro _ _ rfl
  exact .ret ⟨rfl, hsound, hplain⟩

end

end Memory

/-- **Sessions.** Whatever a program calls in whatever order, and whichever requests for memory
fail: after it has released its certificates each handle that was given out is released once and
none was used after that; every certificate that was returned is one of the functions' own, and
every accepted chain, encryption certificate or message is acceptable at the time of the call.
When no request fails, the calls return what the functions without memory return. -/
theorem session_accounted {PKey : Type} (L : IssueLib PKey) (plan : Nat → Bool)
    (calls : List (Int × Memory.Call PKey)) :
    let r := (Memory.session L calls : Refs.Act plan (List (Int × Memory.Event))) Refs.Mem.empty
    (∀ h, r.2.arena.freed.count h = if h < r.2.arena.next then 1 else 0) ∧ r.2.fault = false ∧
    (∀ e ∈ r.1, e.2.Sound L e.1) ∧
    ((∀ n, plan n = true) → r.1 = (Memory.plainCalls L [] calls).2) := by
  obtain ⟨R, ⟨rfl, hsound, hplain⟩, hm⟩ := Memory.session_spec L calls 0 Refs.Mem.empty
    Refs.Mem.empty_holds
  refine ⟨?_, hm.sound, hsound, ?_⟩
  · intro h
    have hcount := hm.owns h
    simpa using hcount
  · intro hno
    refine hplain.resolve_right ?_
    rintro ⟨n, hn⟩
    rw [hno n] at hn
    cases hn

end HybridPqc
