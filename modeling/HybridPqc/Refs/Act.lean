import HybridPqc.Refs.Arena
import Mathlib.Algebra.Order.Group.Multiset

/-!
# Refs.Act

Programs that own what they allocate.

An `Act plan` runs over an arena; its `n`-th request succeeds when `plan n` does. An `Obj` is what a
pointer leads to: the handles that go when it is released, and a value. The memory remembers whether
a handle was used or released that was not live.

`Spec plan P x Q`: with the handles `P`, and whatever others are held beside them, `x` returns some
`a` and leaves handles `R` with `Q a R`; the others are as they were. `Yields o`, `Changes o` and
`Answers o` are the results of a function whose value is `o` when no request fails: it gives that
value, or it fails.
-/

namespace Refs

structure Mem where
  arena : Arena
  clock : Nat
  fault : Bool

namespace Mem

def empty : Mem := ⟨.empty, 0, false⟩

/-- Given out and not released. -/
def live (m : Mem) (h : Nat) : Bool := decide (h < m.arena.next) && !m.arena.freed.contains h

def release (m : Mem) (h : Nat) : Mem := ⟨m.arena.free h, m.clock, m.fault || !m.live h⟩

/-- The handles `R` are held, all others released once, and none was used after that. -/
structure Holds (m : Mem) (R : Multiset Nat) : Prop where
  owns : m.arena.Owns R
  sound : m.fault = false

variable {m : Mem} {R : Multiset Nat} {h : Nat}

theorem empty_holds : empty.Holds 0 := ⟨Arena.owns_empty, rfl⟩

theorem Holds.live (hm : m.Holds R) (hh : h ∈ R) : m.live h = true := by
  have hlt : h < m.arena.next := by
    by_contra hle
    exact hm.owns.notMem (Nat.le_of_not_lt hle) hh
  simp [Mem.live, hlt, hm.owns.not_freed hh]

theorem Holds.release (hm : m.Holds ({h} + R)) : (m.release h).Holds R where
  owns := hm.owns.free
  sound := by
    have hh : h ∈ ({h} : Multiset Nat) + R :=
      Multiset.mem_add.mpr (Or.inl (Multiset.mem_singleton_self h))
    simp [Mem.release, hm.sound, hm.live hh]

theorem Holds.releaseAll {hs : List Nat} (hm : m.Holds ((hs : Multiset Nat) + R)) :
    (hs.foldl Mem.release m).Holds R := by
  induction hs generalizing m with
  | nil => simpa using hm
  | cons h hs ih =>
    refine ih (Holds.release ?_)
    rwa [← Multiset.cons_coe, ← Multiset.singleton_add, add_assoc] at hm

end Mem

/-- A value behind a pointer, with every handle that is released with it. -/
structure Obj (α : Type) where
  handles : List Nat
  val : α

namespace Obj

variable {α β γ : Type}

def owned (p : Obj α) : Multiset Nat := p.handles

/-- `p` takes over what belongs to `q`, and has the value `v` then. -/
def adopt (p : Obj α) (q : Obj β) (v : γ) : Obj γ := ⟨p.handles ++ q.handles, v⟩

@[simp] theorem owned_adopt (p : Obj α) (q : Obj β) (v : γ) :
    (p.adopt q v).owned = p.owned + q.owned := by
  simp [owned, adopt]

@[simp] theorem val_adopt (p : Obj α) (q : Obj β) (v : γ) : (p.adopt q v).val = v := rfl

/-- What is behind a pointer that may be `NULL`. -/
def ownedOpt : Option (Obj α) → Multiset Nat
  | none => 0
  | some p => p.owned

@[simp] theorem ownedOpt_none : ownedOpt (none : Option (Obj α)) = 0 := rfl
@[simp] theorem ownedOpt_some (p : Obj α) : ownedOpt (some p) = p.owned := rfl

end Obj

def Act (_plan : Nat → Bool) (α : Type) : Type := Mem → α × Mem

namespace Act

variable {plan : Nat → Bool} {α β : Type}

instance : Monad (Act plan) where
  pure a m := (a, m)
  bind x f m := f (x m).1 (x m).2

theorem bind_run (x : Act plan α) (f : α → Act plan β) (m : Mem) :
    (x >>= f) m = f (x m).1 (x m).2 := rfl

/-- Whether the next request is granted. -/
def outcome : Act plan Bool := fun m => (plan m.clock, { m with clock := m.clock + 1 })

/-- A new object, or `NULL`. -/
def alloc (v : α) : Act plan (Option (Obj α)) := fun m =>
  let r := m.arena.malloc (plan m.clock)
  (r.1.map fun h => ⟨[h], v⟩, ⟨r.2, m.clock + 1, m.fault⟩)

/-- A library function that returns its result in a new object. -/
def make (o : Option α) : Act plan (Option (Obj α)) :=
  match o with
  | none => pure none
  | some v => alloc v

/-- A library function that returns its result by value. -/
def call (o : Option α) : Act plan (Option α) := do
  if ← outcome then return o else return none

/-- A library function that returns a truth value. -/
def test (b : Bool) : Act plan Bool := do
  if ← outcome then return b else return false

/-- A use of an object. -/
def touch (p : Obj α) : Act plan Unit := fun m =>
  ((), { m with fault := m.fault || !p.handles.all m.live })

def freeObj (p : Obj α) : Act plan Unit := fun m => ((), p.handles.foldl Mem.release m)

/-- `free` of a pointer that may be `NULL`. -/
def free : Option (Obj α) → Act plan Unit
  | none => pure ()
  | some p => freeObj p

/-- `b && x`, where `x` returns a pointer or a value. -/
def guarded (b : Bool) (x : Act plan (Option α)) : Act plan (Option α) :=
  if b then x else return none

/-- `b && x`, where `x` returns a truth value. -/
def also (b : Bool) (x : Act plan Bool) : Act plan Bool := if b then x else return false

/-- The object with the new value `o`, or as it is. -/
def store (p : Obj α) : Option α → Bool × Obj α
  | none => (false, p)
  | some v => (true, ⟨p.handles, v⟩)

/-- A library function that changes an object in place. -/
def change (p : Obj α) (o : Option α) : Act plan (Bool × Obj α) := do
  touch p
  return store p (← call o)

/-- A call on what a pointer leads to, unless it is `NULL`. -/
def reading (p : Option (Obj α)) (f : α → Act plan (Option β)) : Act plan (Option β) :=
  match p with
  | none => return none
  | some p => do
    touch p
    f p.val

/-- `&&` of two functions that change an object. -/
def both (x : Act plan (Bool × Obj α)) (f : Obj α → Act plan (Bool × Obj α)) :
    Act plan (Bool × Obj α) := do
  let (ok, p) ← x
  if ok then f p else return (false, p)

/-- `if (!ok) { free(p); p = NULL; } return p;` -/
def keepIf (r : Bool × Obj α) : Act plan (Option (Obj α)) := do
  if r.1 then return some r.2
  else
    freeObj r.2
    return none

end Act

/-! ## Results -/

section

variable (plan : Nat → Bool) {α β : Type}

/-- Some request fails. -/
def Fails : Prop := ∃ n, plan n = false

/-- By value: `o`, or nothing. -/
inductive Answers (o : Option α) : Option α → Multiset Nat → Prop
  | value (v : α) (h : o = some v) : Answers o (some v) 0
  | failed (h : o = none ∨ Fails plan) : Answers o none 0

/-- As a truth value: `b`, or `false`. -/
inductive Decides (b : Bool) : Bool → Multiset Nat → Prop
  | yes (h : b = true) : Decides b true 0
  | no (h : b = false ∨ Fails plan) : Decides b false 0

/-- In a new object: `o`, or `NULL`. -/
inductive Yields (o : Option α) : Option (Obj α) → Multiset Nat → Prop
  | object (p : Obj α) (h : o = some p.val) : Yields o (some p) p.owned
  | null (h : o = none ∨ Fails plan) : Yields o none 0

/-- In an object that was there: `o`, or the object in any state. -/
inductive Changes (o : Option α) : Bool × Obj α → Multiset Nat → Prop
  | done (p : Obj α) (h : o = some p.val) : Changes o (true, p) p.owned
  | failed (p : Obj α) (h : o = none ∨ Fails plan) : Changes o (false, p) p.owned

/-- In an object whose pointer is handed out in any case: `o`, or the object in any state. -/
inductive Builds (o : Option α) : Bool × Option (Obj α) → Multiset Nat → Prop
  | built (p : Obj α) (h : o = some p.val) : Builds o (true, some p) p.owned
  | failed (p : Option (Obj α)) (h : o = none ∨ Fails plan) : Builds o (false, p) (Obj.ownedOpt p)

/-- A report that says `v`, or less when a request fails. -/
structure Reports (le : α → α → Prop) (v r : α) (R : Multiset Nat) : Prop where
  owned : R = 0
  le : le r v
  full : r = v ∨ Fails plan

/-- `Q`, beside the handles `S`. -/
def Beside (S : Multiset Nat) (Q : α → Multiset Nat → Prop) (a : α) (R : Multiset Nat) : Prop :=
  ∃ R', Q a R' ∧ R = R' + S

end

section

variable {plan : Nat → Bool} {α : Type} {o : Option α} {R : Multiset Nat}

theorem Yields.owned {p : Option (Obj α)} (h : Yields plan o p R) : R = Obj.ownedOpt p := by
  cases h with
  | object => rfl
  | null => rfl

theorem Decides.owned {b r : Bool} (h : Decides plan b r R) : R = 0 := by
  cases h with
  | yes => rfl
  | no => rfl

theorem Decides.imp {b r : Bool} (h : Decides plan b r R) : r = true → b = true := by
  intro hr
  cases h with
  | yes h => exact h
  | no => cases hr

theorem Decides.full {b r : Bool} (h : Decides plan b r R) : r = b ∨ Fails plan := by
  cases h with
  | yes h => exact Or.inl h.symm
  | no h => exact h.imp_left Eq.symm

theorem Changes.owned {r : Bool × Obj α} (h : Changes plan o r R) : R = r.2.owned := by
  cases h with
  | done => rfl
  | failed => rfl

/-- The value behind a pointer that is not `NULL`. -/
theorem Yields.val_eq {p : Option (Obj α)} {q : Obj α} (h : Yields plan o p R) (hq : p = some q) :
    o = some q.val := by
  cases h with
  | object p h =>
    cases hq
    exact h
  | null => cases hq

/-- When no request fails, there is an object. -/
theorem Yields.exists_some {p : Option (Obj α)} {v : α} (h : Yields plan (some v) p R)
    (hno : ¬ Fails plan) : ∃ q, p = some q := by
  cases h with
  | object p _ => exact ⟨p, rfl⟩
  | null h =>
    rcases h with h | h
    · cases h
    · exact (hno h).elim

/-- The same object, for a part of its value. -/
theorem Yields.map {β : Type} {p : Option (Obj α)} (h : Yields plan o p R) (f : α → β) :
    Yields plan (o.map f) (p.map fun q => ⟨q.handles, f q.val⟩) R := by
  cases h with
  | object p h =>
    rw [h]
    exact .object ⟨p.handles, f p.val⟩ rfl
  | null h =>
    refine .null (h.imp_left ?_)
    rintro rfl
    rfl

/-- What there is, or less of it when a request fails. -/
theorem Yields.val_map {p : Option (Obj α)} (h : Yields plan o p R) :
    p.map Obj.val = o ∨ p = none ∧ Fails plan := by
  cases h with
  | object p h => exact Or.inl h.symm
  | null h =>
    rcases h with rfl | hfail
    · exact Or.inl rfl
    · exact Or.inr ⟨rfl, hfail⟩

theorem Yields.of_null (h : Yields plan o none R) : o = none ∨ Fails plan := by
  cases h with
  | null h => exact h

end

/-! ## Specifications -/

section

variable (plan : Nat → Bool) {α β : Type}

def Spec (P : Multiset Nat) (x : Act plan α) (Q : α → Multiset Nat → Prop) : Prop :=
  ∀ F m, m.Holds (P + F) → ∃ R, Q (x m).1 R ∧ (x m).2.Holds (R + F)

variable {plan}

namespace Spec

variable {P P' S : Multiset Nat} {x : Act plan α} {f : α → Act plan β}
  {Q Q' : α → Multiset Nat → Prop} {T : β → Multiset Nat → Prop}

theorem ret {a : α} (h : Q a P) : Spec plan P (pure a : Act plan α) Q := fun _ _ hm => ⟨P, h, hm⟩

theorem bind (hx : Spec plan P x Q) (hf : ∀ a R, Q a R → Spec plan R (f a) T) :
    Spec plan P (x >>= f) T := by
  intro F m hm
  obtain ⟨R, hQ, hR⟩ := hx F m hm
  exact hf _ R hQ F _ hR

theorem frame (S : Multiset Nat) (hx : Spec plan P x Q) : Spec plan (P + S) x (Beside S Q) := by
  intro F m hm
  rw [add_assoc] at hm
  obtain ⟨R, hQ, hR⟩ := hx (S + F) m hm
  refine ⟨R + S, ⟨R, hQ, rfl⟩, ?_⟩
  rwa [add_assoc]

theorem mono (hx : Spec plan P x Q) (h : ∀ a R, Q a R → Q' a R) : Spec plan P x Q' := by
  intro F m hm
  obtain ⟨R, hQ, hR⟩ := hx F m hm
  exact ⟨R, h _ R hQ, hR⟩

theorem pre (hP : P' = P) (hx : Spec plan P x Q) : Spec plan P' x Q := hP ▸ hx

/-- A step that leaves `S` alone, and the rest of the program. -/
theorem step (S : Multiset Nat) (hx : Spec plan P x Q) (hP : P' = P + S)
    (hf : ∀ a R, Q a R → Spec plan (R + S) (f a) T) : Spec plan P' (x >>= f) T := by
  refine (hx.frame S).bind ?_ |>.pre hP
  rintro a _ ⟨R, hQ, rfl⟩
  exact hf a R hQ

/-- A step that releases what it has, and the rest of the program without that. -/
theorem release {x : Act plan Unit} {f : Unit → Act plan β}
    (hx : Spec plan P x fun _ R => R = 0) (S : Multiset Nat) (hP : P' = P + S)
    (hf : Spec plan S (f ()) T) : Spec plan P' (x >>= f) T := by
  refine hx.step S hP ?_
  rintro _ _ rfl
  exact hf.pre (zero_add _)

/-- A step that leaves everything as it is. -/
theorem look (hx : Spec plan P x (Beside P Q)) (hf : ∀ a R, Q a R → Spec plan (R + P) (f a) T) :
    Spec plan P (x >>= f) T := by
  refine hx.bind ?_
  rintro a _ ⟨R, hQ, rfl⟩
  exact hf a R hQ

/-- A question that leaves everything as it is. -/
theorem ask {x : Act plan Bool} {f : Bool → Act plan β} {b : Bool}
    (hx : Spec plan P x (Beside P (Decides plan b)))
    (hf : ∀ r, (r = true → b = true) → (r = b ∨ Fails plan) → Spec plan P (f r) T) :
    Spec plan P (x >>= f) T := by
  refine hx.look ?_
  intro r R hr
  rw [hr.owned, zero_add]
  exact hf r hr.imp hr.full

end Spec

/-! ## The operations -/

section

variable {P : Multiset Nat} {o : Option α} {p : Obj α}

theorem object_spec (hP : P = p.owned) (h : o = some p.val) :
    Spec plan P (pure (some p) : Act plan (Option (Obj α))) (Yields plan o) := by
  rw [hP]
  exact .ret (.object p h)

theorem done_spec (hP : P = p.owned) (h : o = some p.val) :
    Spec plan P (pure (true, p) : Act plan (Bool × Obj α)) (Changes plan o) := by
  rw [hP]
  exact .ret (.done p h)

end

variable {P : Multiset Nat}

theorem outcome_spec : Spec plan 0 (Act.outcome : Act plan Bool)
    fun granted R => R = 0 ∧ (granted = false → Fails plan) := by
  intro F m hm
  exact ⟨0, ⟨rfl, fun h => ⟨_, h⟩⟩, hm.owns, hm.sound⟩

theorem alloc_spec (v : α) : Spec plan 0 (Act.alloc v) (Yields plan (some v)) := by
  intro F m hm
  have howns := hm.owns.malloc (plan m.clock)
  rw [Multiset.zero_add] at howns
  simp only [Act.alloc]
  cases hp : plan m.clock with
  | false =>
    rw [hp] at howns
    exact ⟨0, .null (Or.inr ⟨_, hp⟩), howns, hm.sound⟩
  | true =>
    rw [hp] at howns
    exact ⟨_, .object ⟨[m.arena.next], v⟩ rfl, howns, hm.sound⟩

/-- With a value, only a request that fails gives `NULL`. -/
theorem fails_of_some {v : α} (h : some v = none ∨ Fails plan) : Fails plan := by
  rcases h with h | h
  · cases h
  · exact h

theorem fails_of_true (h : true = false ∨ Fails plan) : Fails plan := by
  rcases h with h | h
  · cases h
  · exact h

theorem make_spec (o : Option α) : Spec plan 0 (Act.make o) (Yields plan o) := by
  cases o with
  | none => exact .ret (.null (Or.inl rfl))
  | some v => exact alloc_spec v

theorem call_spec (o : Option α) : Spec plan 0 (Act.call o) (Answers plan o) := by
  refine outcome_spec.bind ?_
  rintro granted _ ⟨rfl, hfail⟩
  cases granted with
  | false => exact .ret (.failed (Or.inr (hfail rfl)))
  | true =>
    cases o with
    | none => exact .ret (.failed (Or.inl rfl))
    | some v => exact .ret (.value v rfl)

theorem test_spec (b : Bool) : Spec plan 0 (Act.test b) (Decides plan b) := by
  refine outcome_spec.bind ?_
  rintro granted _ ⟨rfl, hfail⟩
  cases granted with
  | false => exact .ret (.no (Or.inr (hfail rfl)))
  | true =>
    cases b with
    | false => exact .ret (.no (Or.inl rfl))
    | true => exact .ret (.yes rfl)

theorem touch_spec (p : Obj α) : Spec plan p.owned (Act.touch p : Act plan Unit)
    fun _ R => R = p.owned := by
  intro F m hm
  refine ⟨p.owned, rfl, hm.owns, ?_⟩
  have hall : p.handles.all m.live = true := by
    rw [List.all_eq_true]
    intro h hh
    exact hm.live (Multiset.mem_add.mpr (Or.inl hh))
  simp [Act.touch, hm.sound, hall]

/-- Anybody may use what is held. -/
theorem touch_spec_of_le {B : Multiset Nat} {p : Obj α} (hp : p.owned ≤ B) :
    Spec plan B (Act.touch p : Act plan Unit) fun _ R => R = B := by
  obtain ⟨S, rfl⟩ := Multiset.le_iff_exists_add.mp hp
  refine ((touch_spec p).frame S).mono ?_
  rintro _ _ ⟨_, rfl, rfl⟩
  rfl

theorem freeObj_spec (p : Obj α) : Spec plan p.owned (Act.freeObj p : Act plan Unit)
    fun _ R => R = 0 := by
  intro F m hm
  refine ⟨0, rfl, ?_⟩
  rw [Multiset.zero_add]
  exact Mem.Holds.releaseAll hm

theorem free_spec (p : Option (Obj α)) : Spec plan (Obj.ownedOpt p) (Act.free p : Act plan Unit)
    fun _ R => R = 0 := by
  cases p with
  | none => exact .ret rfl
  | some p => exact freeObj_spec p

theorem change_spec (p : Obj α) (o : Option α) :
    Spec plan p.owned (Act.change p o) (Changes plan o) := by
  refine (touch_spec p).bind ?_
  rintro _ _ rfl
  refine (call_spec o).step p.owned (Multiset.zero_add _).symm ?_
  rintro _ _ (⟨v, h⟩ | ⟨h⟩)
  · rw [Multiset.zero_add]
    exact .ret (.done ⟨p.handles, v⟩ h)
  · rw [Multiset.zero_add]
    exact .ret (.failed p h)

theorem store_changes (p : Obj α) (o : Option α) : Changes plan o (Act.store p o) p.owned := by
  cases o with
  | none => exact .failed p (Or.inl rfl)
  | some v => exact .done ⟨p.handles, v⟩ rfl

theorem guarded_spec {x : Act plan (Option α)} {b : Bool}
    {Q : Option α → Multiset Nat → Prop} (hnull : b = false → Q none P)
    (hx : b = true → Spec plan P x Q) : Spec plan P (Act.guarded b x) Q := by
  cases b with
  | false => exact .ret (hnull rfl)
  | true => exact hx rfl

theorem also_spec {x : Act plan Bool} {b c r : Bool} {R : Multiset Nat}
    (hr : Decides plan b r R) (hx : b = true → Spec plan 0 x (Decides plan c)) :
    Spec plan R (Act.also r x) (Decides plan (b && c)) := by
  cases hr with
  | yes h =>
    rw [h, Bool.true_and]
    exact hx h
  | no h =>
    refine .ret (.no (h.imp_left ?_))
    rintro rfl
    rfl

/-- A truth value that asks for nothing. -/
theorem pure_spec (b : Bool) :
    Spec plan P (pure b : Act plan Bool) (Beside P (Decides plan b)) := by
  refine .ret ⟨0, ?_, (zero_add _).symm⟩
  cases b with
  | false => exact .no (Or.inl rfl)
  | true => exact .yes rfl

/-- The pointer stays held, whatever `f` does. -/
theorem reading_spec {p : Option (Obj α)} {o : Option α} {R : Multiset Nat}
    {f : α → Act plan (Option β)} {Q : Option β → Multiset Nat → Prop} (hp : Yields plan o p R)
    (hnull : o = none ∨ Fails plan → Q none P) (hf : ∀ v, o = some v → Spec plan P (f v) Q) :
    Spec plan (R + P) (Act.reading p f) (Beside R Q) := by
  cases hp with
  | object p h =>
    refine (touch_spec p).step P rfl ?_
    rintro _ _ rfl
    exact ((hf p.val h).frame p.owned).pre (add_comm _ _)
  | null h => exact .ret ⟨P, hnull h, add_comm _ _⟩

theorem both_spec {x : Act plan (Bool × Obj α)} {f : Obj α → Act plan (Bool × Obj α)}
    {o : Option α} {g : α → Option α} (hx : Spec plan P x (Changes plan o))
    (hf : ∀ p, o = some p.val → Spec plan p.owned (f p) (Changes plan (g p.val))) :
    Spec plan P (Act.both x f) (Changes plan (o.bind g)) := by
  refine hx.bind ?_
  rintro _ _ (⟨p, h⟩ | ⟨p, h⟩)
  · rw [h]
    exact hf p h
  · refine .ret (.failed p (h.imp_left ?_))
    rintro rfl
    rfl

theorem keepIf_spec {r : Bool × Obj α} {o : Option α} (h : Changes plan o r P) :
    Spec plan P (Act.keepIf r) (Yields plan o) := by
  cases h with
  | done p h => exact .ret (.object p h)
  | failed p h =>
    refine (freeObj_spec p).bind ?_
    rintro _ _ rfl
    exact .ret (.null h)

theorem keep_spec {x : Act plan (Bool × Obj α)} {o : Option α}
    (hx : Spec plan P x (Changes plan o)) : Spec plan P (x >>= Act.keepIf) (Yields plan o) := by
  refine hx.bind ?_
  intro r R hr
  exact keepIf_spec hr

end

end Refs
