import HybridPqc.Fs.Stdio
import HybridPqc.Tools.GenerateDemoChainCorrect
import HybridPqc.X509.ToyCerts

/-!
# Tools.WriteFiles

`hybrid_x509_write_files` over buffered streams that can fail at every call. `GenerateDemoChain` has
the same function when nothing fails; `hybridX509WriteFiles_perfect` connects the two.

Both files are opened, and with that emptied, before either is tested, and the result is fixed
before `fclose`, whose own result is dropped. `write_files_all_or_nothing_iff` says which plans
still leave all or nothing.
-/

namespace HybridPqc

open Conc Stdio

/-- The pieces in which `PEM_write_X509` and `i2d_X509_fp` write a certificate; `none` when it has
no encoding. -/
structure CertificateWriter where
  pemPieces : X509 → Option (List Bytes)
  derPieces : X509 → Option (List Bytes)

section

variable {Path : Type} [DecidableEq Path]

/-- `PEM_write_X509` or `i2d_X509_fp` on a stream. -/
def writeCertificate (plan : Plan) (pieces : Option (List Bytes)) (files : Files Path)
    (s : Stream Path) : Bool × Stream Path × Files Path :=
  match pieces with
  | none => (false, s, files)
  | some pieces => fwriteAll plan.write 0 pieces files s

/-- `if (file != NULL) fclose(file)` -/
def fcloseOpen (files : Files Path) (s : Option (Stream Path)) (flushed : Nat) : Files Path :=
  match s with
  | none => files
  | some s => (fclose files s flushed).2

variable (W : CertificateWriter)

/-- The two calls behind the tests of the streams. -/
def writeStreams (certificate : X509) (pem der : Plan) (files : Files Path)
    (pemFile derFile : Option (Stream Path)) :
    Bool × Option (Stream Path) × Option (Stream Path) × Files Path :=
  match pemFile, derFile with
  | some pemStream, some derStream =>
    let (pemWritten, pemStream, files) :=
      writeCertificate pem (W.pemPieces certificate) files pemStream
    if pemWritten then
      let (derWritten, derStream, files) :=
        writeCertificate der (W.derPieces certificate) files derStream
      (derWritten, some pemStream, some derStream, files)
    else (false, some pemStream, some derStream, files)
  | pemFile, derFile => (false, pemFile, derFile, files)

/-- `hybrid_x509_write_files`; `pem` and `der` are the plans of the two streams. -/
def hybridX509WriteFilesBuffered (certificate : Option X509) (pemPath derPath : Option Path)
    (pem der : Plan) (files : Files Path) : Bool × Files Path :=
  match certificate, pemPath, derPath with
  | some certificate, some pemPath, some derPath =>
    let (pemFile, files) := fopenWb files pemPath pem.opens
    let (derFile, files) := fopenWb files derPath der.opens
    let (ok, pemFile, derFile, files) := writeStreams W certificate pem der files pemFile derFile
    let files := fcloseOpen files pemFile pem.flushed
    (ok, fcloseOpen files derFile der.flushed)
  | _, _, _ => (false, files)

end

/-! ## What the files hold -/

/-- What becomes of the pieces handed to a new stream; `none` when the call is not reached or there
is no encoding. -/
def handed (plan : Plan) : Option (List Bytes) → Bool × Progress
  | none => (false, ⟨[], []⟩)
  | some pieces => Progress.writeAll plan.write 0 pieces ⟨[], []⟩

section

variable (W : CertificateWriter) (certificate : X509) (pem der : Plan)

/-- The pieces the PEM stream is handed. -/
def pemHanded : Option (List Bytes) := if der.opens then W.pemPieces certificate else none

/-- The pieces the DER stream is handed. -/
def derHanded : Option (List Bytes) :=
  if pem.opens ∧ (handed pem (pemHanded W certificate der)).1 = true then W.derPieces certificate
  else none

/-- What the plans leave in the PEM file when it has been opened. -/
def pemLeft : Bytes := (handed pem (pemHanded W certificate der)).2.close pem.flushed

def derLeft : Bytes := (handed der (derHanded W certificate pem der)).2.close der.flushed

end

section

variable {Path : Type} [DecidableEq Path] {plan : Plan} {pieces : Option (List Bytes)} {path : Path}
  {files : Files Path}

theorem writeCertificate_new (h : files path = some []) :
    writeCertificate plan pieces files ⟨path, []⟩ =
      ((handed plan pieces).1, ⟨path, (handed plan pieces).2.pending⟩,
        Function.update files path (some (handed plan pieces).2.reached)) := by
  cases pieces with
  | none => simp only [writeCertificate, handed, ← h, Function.update_eq_self]
  | some pieces => exact fwriteAll_eq 0 pieces h

variable {W : CertificateWriter} {certificate : X509} {p q : Path} {pem der : Plan}

/-- The files when `path` holds `b`, if it was opened. -/
def leave (files : Files Path) (path : Path) (opened : Bool) (b : Bytes) : Files Path :=
  if opened then Function.update files path (some b) else files

theorem leave_self (files : Files Path) (path : Path) (opened : Bool) (b : Bytes) :
    leave files path opened b path = if opened then some b else files path := by
  cases opened with
  | false => rfl
  | true => exact Function.update_self ..

theorem leave_of_ne {other : Path} (h : other ≠ path) (opened : Bool) (b : Bytes) :
    leave files path opened b other = files other := by
  cases opened with
  | false => rfl
  | true => exact Function.update_of_ne h ..

/-- A second update of `p` passes one of `q`. -/
theorem update_past (hpq : p ≠ q) (files : Files Path) (a b c : Option Bytes) :
    Function.update (Function.update (Function.update files p a) q b) p c =
      Function.update (Function.update files p c) q b := by
  funext other
  simp only [Function.update_apply]
  by_cases hp : other = p
  · simp [hp, hpq]
  · simp [hp]

/-- Closing the two streams. -/
theorem fcloseOpen_both (hpq : p ≠ q) (files : Files Path) (a b : Progress) :
    fcloseOpen (fcloseOpen
        (Function.update (Function.update files p (some a.reached)) q (some b.reached))
        (some ⟨p, a.pending⟩) pem.flushed) (some ⟨q, b.pending⟩) der.flushed =
      Function.update (Function.update files p (some (a.close pem.flushed))) q
        (some (b.close der.flushed)) := by
  have hp : Function.update (Function.update files p (some a.reached)) q (some b.reached) p =
      some a.reached := by
    rw [Function.update_of_ne hpq, Function.update_self]
  simp only [fcloseOpen, fclose]
  rw [append_eq (s := ⟨p, a.pending⟩) hp, update_past hpq,
    append_eq (s := ⟨q, b.pending⟩) (Function.update_self ..), Function.update_idem]
  rfl

/-- By cases on the two opens and on the PEM encoding: the result is that of the last call, and an
opened file holds what its plan leaves. -/
theorem hybridX509WriteFilesBuffered_eq (hpq : p ≠ q) :
    hybridX509WriteFilesBuffered W (some certificate) (some p) (some q) pem der files =
      ((handed der (derHanded W certificate pem der)).1,
        leave (leave files p pem.opens (pemLeft W certificate pem der)) q der.opens
          (derLeft W certificate pem der)) := by
  have hp : Function.update (Function.update files p (some [])) q (some []) p = some [] := by
    rw [Function.update_of_ne hpq, Function.update_self]
  have hq : ∀ (files : Files Path) b, Function.update files q b q = b :=
    fun files b => Function.update_self ..
  cases hpem : pem.opens with
  | false =>
    cases hder : der.opens with
    | false =>
      simp [hybridX509WriteFilesBuffered, fopenWb, hpem, hder, writeStreams, fcloseOpen, leave,
        derHanded, handed]
    | true =>
      simp [hybridX509WriteFilesBuffered, fopenWb, hpem, hder, writeStreams, fcloseOpen, leave,
        derHanded, handed, derLeft, Progress.close, fclose, append]
  | true =>
    cases hder : der.opens with
    | false =>
      simp [hybridX509WriteFilesBuffered, fopenWb, hpem, hder, writeStreams, fcloseOpen, leave,
        derHanded, handed, pemLeft, pemHanded, Progress.close, fclose, append]
    | true =>
      simp only [hybridX509WriteFilesBuffered, fopenWb, hpem, hder, writeStreams, leave, if_true,
        writeCertificate_new hp]
      have hpem' : pemHanded W certificate der = W.pemPieces certificate := by
        simp [pemHanded, hder]
      rw [update_past hpq]
      cases hok : (handed pem (W.pemPieces certificate)).1 with
      | false =>
        have hder' : derHanded W certificate pem der = none := by simp [derHanded, hpem', hok]
        simp only [Bool.false_eq_true, if_false, pemLeft, derLeft, hpem', hder']
        rw [← fcloseOpen_both hpq]
        rfl
      | true =>
        have hder' : derHanded W certificate pem der = W.derPieces certificate := by
          simp [derHanded, hpem, hpem', hok]
        simp only [if_true, writeCertificate_new (hq _ _), Function.update_idem, pemLeft, derLeft,
          hpem', hder']
        rw [fcloseOpen_both hpq]

end

/-! ## All or nothing -/

section

variable {Path : Type} (W : CertificateWriter) (certificate : X509) (pem der : Plan)

/-- A result of 1 with both encodings complete, a result of 0 with both paths as they were. -/
def AllOrNothing (p q : Path) (files : Files Path) (r : Bool × Files Path) : Prop :=
  (r.1 = true → ∃ a b, W.pemPieces certificate = some a ∧ W.derPieces certificate = some b ∧
    r.2 p = some a.flatten ∧ r.2 q = some b.flatten) ∧
  (r.1 = false → r.2 p = files p ∧ r.2 q = files q)

/-- Both files open and both streams take all of their pieces `a` and `b`. -/
structure TakesAll (a b : List Bytes) : Prop where
  pemOpens : pem.opens = true
  derOpens : der.opens = true
  pemPieces : W.pemPieces certificate = some a
  derPieces : W.derPieces certificate = some b
  pemTakes : pem.takes a = true
  derTakes : der.takes b = true

/-- Either all is taken and each `fclose` gets rid of what still waits, or a call before them fails
and each file that was opened held before what the plans let through to it. -/
def CompleteOrSame (p q : Path) (files : Files Path) : Prop :=
  (∃ a b, TakesAll W certificate pem der a b ∧ pem.flushes a ∧ der.flushes b) ∨
  ((∀ a b, ¬ TakesAll W certificate pem der a b) ∧
    (pem.opens = true → files p = some (pemLeft W certificate pem der)) ∧
    (der.opens = true → files q = some (derLeft W certificate pem der)))

variable {W certificate pem der} {a b : List Bytes}

theorem TakesAll.pemHanded_eq (h : TakesAll W certificate pem der a b) :
    pemHanded W certificate der = some a := by
  simp [pemHanded, h.derOpens, h.pemPieces]

theorem TakesAll.derHanded_eq (h : TakesAll W certificate pem der a b) :
    derHanded W certificate pem der = some b := by
  have hpem : (handed pem (some a)).1 = true := h.pemTakes
  simp [derHanded, h.pemHanded_eq, h.pemOpens, hpem, h.derPieces]

theorem TakesAll.result (h : TakesAll W certificate pem der a b) :
    (handed der (derHanded W certificate pem der)).1 = true := by
  rw [h.derHanded_eq]
  exact h.derTakes

theorem TakesAll.left (h : TakesAll W certificate pem der a b) :
    pemLeft W certificate pem der = pem.leaves a ∧
      derLeft W certificate pem der = der.leaves b := by
  simp only [pemLeft, derLeft, h.pemHanded_eq, h.derHanded_eq]
  exact ⟨rfl, rfl⟩

/-- The last call is reached and succeeds only when all is taken. -/
theorem takesAll_of_result (h : (handed der (derHanded W certificate pem der)).1 = true) :
    ∃ a b, TakesAll W certificate pem der a b := by
  cases hb : derHanded W certificate pem der with
  | none =>
    rw [hb] at h
    cases h
  | some b =>
    rw [hb] at h
    unfold derHanded at hb
    split at hb
    · rename_i hpem
      obtain ⟨hopens, hpem⟩ := hpem
      cases ha : pemHanded W certificate der with
      | none =>
        rw [ha] at hpem
        cases hpem
      | some a =>
        rw [ha] at hpem
        unfold pemHanded at ha
        split at ha
        · rename_i hder
          exact ⟨a, b, hopens, hder, ha, hb, hpem, h⟩
        · cases ha
    · cases hb

end

section

variable {Path : Type} [DecidableEq Path] {W : CertificateWriter} {certificate : X509} {p q : Path}
  {pem der : Plan} {files : Files Path}

variable (W certificate pem der files) in
theorem hybridX509WriteFilesBuffered_at (hpq : p ≠ q) :
    (hybridX509WriteFilesBuffered W (some certificate) (some p) (some q) pem der files).2 p =
      (if pem.opens then some (pemLeft W certificate pem der) else files p) ∧
    (hybridX509WriteFilesBuffered W (some certificate) (some p) (some q) pem der files).2 q =
      (if der.opens then some (derLeft W certificate pem der) else files q) := by
  rw [hybridX509WriteFilesBuffered_eq hpq]
  constructor
  · simp only [leave_of_ne hpq, leave_self]
  · simp only [leave_self, leave_of_ne hpq.symm]

/-- When all is taken the result is 1, and the rest is up to `fclose`. -/
theorem allOrNothing_of_takesAll (hpq : p ≠ q) {a b : List Bytes}
    (h : TakesAll W certificate pem der a b) :
    AllOrNothing W certificate p q files
        (hybridX509WriteFilesBuffered W (some certificate) (some p) (some q) pem der files) ↔
      pem.flushes a ∧ der.flushes b := by
  obtain ⟨hp, hq⟩ := hybridX509WriteFilesBuffered_at W certificate pem der files hpq
  have hone : (hybridX509WriteFilesBuffered W (some certificate) (some p) (some q) pem der
      files).1 = true := by
    rw [hybridX509WriteFilesBuffered_eq hpq]
    exact h.result
  rw [if_pos h.pemOpens, h.left.1] at hp
  rw [if_pos h.derOpens, h.left.2] at hq
  rw [← Plan.leaves_eq h.pemTakes, ← Plan.leaves_eq h.derTakes]
  simp [AllOrNothing, hone, hp, hq, h.pemPieces, h.derPieces]

/-- When a call fails the result is 0, and the opened files hold what got through. -/
theorem allOrNothing_of_fails (hpq : p ≠ q) (h : ∀ a b, ¬ TakesAll W certificate pem der a b) :
    AllOrNothing W certificate p q files
        (hybridX509WriteFilesBuffered W (some certificate) (some p) (some q) pem der files) ↔
      (pem.opens = true → files p = some (pemLeft W certificate pem der)) ∧
      (der.opens = true → files q = some (derLeft W certificate pem der)) := by
  obtain ⟨hp, hq⟩ := hybridX509WriteFilesBuffered_at W certificate pem der files hpq
  have hzero : (hybridX509WriteFilesBuffered W (some certificate) (some p) (some q) pem der
      files).1 = false := by
    rw [hybridX509WriteFilesBuffered_eq hpq]
    apply Bool.eq_false_iff.mpr
    intro hone
    obtain ⟨a, b, hall⟩ := takesAll_of_result hone
    exact h a b hall
  have hsame : ∀ (opened : Bool) (x : Bytes) (prior : Option Bytes),
      (if opened then some x else prior) = prior ↔ (opened = true → prior = some x) := by
    intro opened x prior
    cases opened with
    | false => simp
    | true => simp [eq_comm]
  simp only [AllOrNothing, hzero, hp, hq, hsame, Bool.false_eq_true, false_implies, true_and,
    true_implies]

end

/-- `hybridX509WriteFiles` in a run without failures does what this function does under perfect
plans. -/
theorem hybridX509WriteFiles_perfect {PKey : Type} {D : DemoLib PKey} {now : Int}
    {W : CertificateWriter}
    {certificate : X509} {p q : CString} (hpq : p ≠ q) {s s' : Disk} {r : Bool}
    (hpem : (W.pemPieces certificate).map List.flatten = D.pemWriteX509 certificate)
    (hder : (W.derPieces certificate).map List.flatten = D.i2dX509 certificate)
    (h : Run (demoStep D now) (hybridX509WriteFiles certificate p q) s r s') :
    ∃ total, hybridX509WriteFilesBuffered W (some certificate) (some p) (some q) (.perfect total)
      (.perfect total) s.file = (r, s'.file) := by
  obtain ⟨_, _, ⟨rfl, rfl⟩, h⟩ := run_demo.mp h
  obtain ⟨_, _, ⟨rfl, rfl⟩, h⟩ := run_demo.mp h
  obtain ⟨_, _, ⟨rfl, pem, hp, rfl⟩, h⟩ := run_demo.mp h
  obtain ⟨_, _, ⟨rfl, der, hd, rfl⟩, h⟩ := run_call.mp h
  cases h
  rw [← hpem] at hp
  rw [← hder] at hd
  obtain ⟨a, ha, rfl⟩ := Option.map_eq_some_iff.mp hp
  obtain ⟨b, hb, rfl⟩ := Option.map_eq_some_iff.mp hd
  refine ⟨a.flatten.length + b.flatten.length, ?_⟩
  have hla : a.flatten.length ≤ a.flatten.length + b.flatten.length := Nat.le_add_right ..
  have hlb : b.flatten.length ≤ a.flatten.length + b.flatten.length := Nat.le_add_left ..
  have hall : TakesAll W certificate (.perfect (a.flatten.length + b.flatten.length))
      (.perfect (a.flatten.length + b.flatten.length)) a b :=
    ⟨rfl, rfl, ha, hb, Plan.perfect_takes hla, Plan.perfect_takes hlb⟩
  rw [hybridX509WriteFilesBuffered_eq hpq, hall.result, hall.left.1, hall.left.2,
    (Plan.leaves_eq hall.pemTakes).mpr (Plan.perfect_flushes hla),
    (Plan.leaves_eq hall.derTakes).mpr (Plan.perfect_flushes hlb)]
  simp only [Disk.writeFile, update_past hpq, Function.update_idem]
  rfl

/-- **Which plans leave all or nothing.** Writing a certificate is all or nothing when everything is
taken and both `fclose` calls get rid of what waits, or when a call before them fails and the opened
files held what gets through to them: a file that is not written to must have been empty. -/
theorem write_files_all_or_nothing_iff {Path : Type} [DecidableEq Path] (W : CertificateWriter)
    (certificate : X509) (p q : Path) (hpq : p ≠ q) (pem der : Plan) (files : Files Path) :
    AllOrNothing W certificate p q files
        (hybridX509WriteFilesBuffered W (some certificate) (some p) (some q) pem der files) ↔
      CompleteOrSame W certificate pem der p q files := by
  by_cases hall : ∃ a b, TakesAll W certificate pem der a b
  · obtain ⟨a, b, h⟩ := hall
    rw [allOrNothing_of_takesAll hpq h]
    constructor
    · intro hflush
      exact .inl ⟨a, b, h, hflush⟩
    · rintro (⟨a', b', h', hflush⟩ | ⟨hnone, _⟩)
      · obtain rfl : a = a' := Option.some.inj (h.pemPieces.symm.trans h'.pemPieces)
        obtain rfl : b = b' := Option.some.inj (h.derPieces.symm.trans h'.derPieces)
        exact hflush
      · exact (hnone a b h).elim
  · have hnone : ∀ a b, ¬ TakesAll W certificate pem der a b := fun a b h => hall ⟨a, b, h⟩
    rw [allOrNothing_of_fails hpq hnone]
    constructor
    · intro hsame
      exact .inr ⟨hnone, hsame⟩
    · rintro (⟨a, b, h, _⟩ | ⟨_, hsame⟩)
      · exact (hnone a b h).elim
      · exact hsame

namespace Toy

/-- The writer of the sample tool, in one piece each. -/
def writer : CertificateWriter where
  pemPieces c := (demoLib.pemWriteX509 c).map fun pem => [pem]
  derPieces c := (demoLib.i2dX509 c).map fun der => [der]

def derPath : CString := ⟨Bytes.ofAscii "demo.der", by decide⟩

/-- A disk with an older certificate under every path. -/
def olderFiles : Files CString := fun _ => some [0x30, 0]

/-- All is taken into the buffer, which the full disk does not accept at `fclose`. -/
def lostAtClose : Plan := ⟨true, fun _ => ⟨2 ^ 31, 0⟩, 0⟩

/-- The file does not open. -/
def notOpened : Plan := ⟨false, fun _ => ⟨0, 0⟩, 0⟩

theorem path_ne_derPath : path ≠ derPath := by decide +kernel

theorem writer_pieces {c : X509} (h : Reread c) :
    writer.pemPieces c = some [Ber.encode c.toBer] ∧
      writer.derPieces c = some [Ber.encode c.toBer] := by
  simp [writer, demoLib, h.1]

theorem encode_ne_nil (c : X509) : Ber.encode c.toBer ≠ [] := by
  simp [X509.toBer, Ber.encode]

/-- One piece that fits into the buffer waits there. -/
theorem writeAll_buffered {x : Bytes} {total : Nat} (h : x.length ≤ total) :
    Progress.writeAll (fun _ => ⟨total, 0⟩) 0 [x] ⟨[], []⟩ = (true, ⟨[], x⟩) := by
  simp [Progress.writeAll, Progress.write, h, List.take_of_length_le h]

theorem takesAll_buffered {c : X509} (h : Reread c) (pem der : Plan) (hpo : pem.opens = true)
    (hdo : der.opens = true) (hpw : pem.write = fun _ => ⟨2 ^ 31, 0⟩)
    (hdw : der.write = fun _ => ⟨2 ^ 31, 0⟩) :
    TakesAll writer c pem der [Ber.encode c.toBer] [Ber.encode c.toBer] := by
  have hlen : (Ber.encode c.toBer).length ≤ 2 ^ 31 := h.length_le.trans (by decide)
  refine ⟨hpo, hdo, (writer_pieces h).1, (writer_pieces h).2, ?_, ?_⟩
  · rw [Plan.takes, hpw, writeAll_buffered hlen]
  · rw [Plan.takes, hdw, writeAll_buffered hlen]

end Toy

/-- A result of 1 with two empty files, and a result of 0 with an older certificate gone. -/
theorem write_files_not_all_or_nothing : ∃ c, Toy.Reread c ∧
    hybridX509WriteFilesBuffered Toy.writer (some c) (some Toy.path) (some Toy.derPath)
      Toy.lostAtClose Toy.lostAtClose Toy.olderFiles = (true,
        Function.update (Function.update Toy.olderFiles Toy.path (some [])) Toy.derPath (some [])) ∧
    ¬ AllOrNothing Toy.writer c Toy.path Toy.derPath Toy.olderFiles
      (hybridX509WriteFilesBuffered Toy.writer (some c) (some Toy.path) (some Toy.derPath)
        Toy.lostAtClose Toy.lostAtClose Toy.olderFiles) ∧
    hybridX509WriteFilesBuffered Toy.writer (some c) (some Toy.path) (some Toy.derPath)
      Toy.lostAtClose Toy.notOpened Toy.olderFiles = (false,
        Function.update Toy.olderFiles Toy.path (some [])) ∧
    ¬ AllOrNothing Toy.writer c Toy.path Toy.derPath Toy.olderFiles
      (hybridX509WriteFilesBuffered Toy.writer (some c) (some Toy.path) (some Toy.derPath)
        Toy.lostAtClose Toy.notOpened Toy.olderFiles) := by
  obtain ⟨c, _, _, _, hc, _⟩ := Toy.server_exists Toy.serverName_writable
  have hall := Toy.takesAll_buffered hc Toy.lostAtClose Toy.lostAtClose rfl rfl rfl rfl
  have hlen : (Ber.encode c.toBer).length ≤ 2 ^ 31 := hc.length_le.trans (by decide)
  have hleft : Toy.lostAtClose.leaves [Ber.encode c.toBer] = [] := by
    rw [Plan.leaves, Toy.lostAtClose, Toy.writeAll_buffered hlen]
    rfl
  have hclosed : hybridX509WriteFilesBuffered Toy.writer (some c) (some Toy.path) (some Toy.derPath)
      Toy.lostAtClose Toy.lostAtClose Toy.olderFiles = (true,
        Function.update (Function.update Toy.olderFiles Toy.path (some [])) Toy.derPath
          (some [])) := by
    rw [hybridX509WriteFilesBuffered_eq Toy.path_ne_derPath, hall.result, hall.left.1, hall.left.2,
      hleft]
    rfl
  have hopened : hybridX509WriteFilesBuffered Toy.writer (some c) (some Toy.path) (some Toy.derPath)
      Toy.lostAtClose Toy.notOpened Toy.olderFiles = (false,
        Function.update Toy.olderFiles Toy.path (some [])) := by
    rw [hybridX509WriteFilesBuffered_eq Toy.path_ne_derPath]
    rfl
  refine ⟨c, hc, hclosed, ?_, hopened, ?_⟩
  · rw [allOrNothing_of_takesAll Toy.path_ne_derPath hall]
    rintro ⟨hflush, _⟩
    rw [Plan.flushes, Toy.lostAtClose, Toy.writeAll_buffered hlen] at hflush
    exact Toy.encode_ne_nil c (List.eq_nil_of_length_eq_zero (Nat.le_zero.mp hflush))
  · have hfails : ∀ a b, ¬ TakesAll Toy.writer c Toy.lostAtClose Toy.notOpened a b := by
      intro a b h
      cases h.derOpens
    rw [allOrNothing_of_fails Toy.path_ne_derPath hfails]
    rintro ⟨hsame, _⟩
    cases hsame rfl

/-- Under perfect plans a certificate is written under both paths. -/
theorem write_files_all_or_nothing_iff_perfect : ∃ c, Toy.Reread c ∧
    AllOrNothing Toy.writer c Toy.path Toy.derPath Toy.olderFiles
      (hybridX509WriteFilesBuffered Toy.writer (some c) (some Toy.path) (some Toy.derPath)
        (.perfect (2 ^ 31)) (.perfect (2 ^ 31)) Toy.olderFiles) := by
  obtain ⟨c, _, _, _, hc, _⟩ := Toy.server_exists Toy.serverName_writable
  have hall := Toy.takesAll_buffered hc (.perfect (2 ^ 31)) (.perfect (2 ^ 31)) rfl rfl rfl rfl
  have hlen : (Ber.encode c.toBer).length ≤ 2 ^ 31 := hc.length_le.trans (by decide)
  have hflush : (Plan.perfect (2 ^ 31)).flushes [Ber.encode c.toBer] := by
    rw [Plan.flushes, Plan.perfect, Toy.writeAll_buffered hlen]
    exact hlen
  exact ⟨c, hc, (write_files_all_or_nothing_iff Toy.writer c Toy.path Toy.derPath
    Toy.path_ne_derPath _ _
    Toy.olderFiles).mpr (.inl ⟨_, _, hall, hflush, hflush⟩)⟩

end HybridPqc
