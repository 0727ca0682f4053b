import Mathlib.Data.Set.Basic
import Mathlib.Logic.Function.Basic
import Mathlib.Order.Defs.PartialOrder

/-!
# Programs over a shared store, and their interleavings

An operation is a tree of *statements*: it returns, it raises, or it sends one statement to
the store and goes on with the answer. A statement is the unit of atomicity, so a store with
many clients is a map from process ids to the trees that are still to be run.

* `Prog`: the trees, with `bind`, `throw` and `tryCatch`, so an operation is written in `do`
  notation.
* `Machine`: what a statement does to the store, as a relation (an answer may be a fault).
* `Logic`, `wp`: rely/guarantee reasoning. The weakest precondition of a tree for one process
  lets the other processes act, within `rely`, before every statement.
* `Reach.sound`: if every operation that may be started keeps the contract, then in every
  reachable world the invariant holds and every running tree still satisfies its precondition.
* `Exec`: one operation run with nobody else about; `Exec.sound` is the same rule for it.
* `Acts`: what one process does while the others do anything at all to the store; `Sends` says what
  a program may send, whatever is answered.
* `Schedule.run`: an executable scheduler, to exhibit a run.
-/

namespace Program

/-! ## Trees of statements -/

/-- A program with statements `Q`, answers `A`, exceptions `ε` and result `α`. -/
inductive Prog (Q : Type) (A : Q → Type) (ε α : Type) where
  | ret (a : α)
  | raise (e : ε)
  | call (q : Q) (k : Except ε (A q) → Prog Q A ε α)

variable {Q : Type} {A : Q → Type} {ε α β : Type}

namespace Prog

def bind : Prog Q A ε α → (α → Prog Q A ε β) → Prog Q A ε β
  | .ret a, f => f a
  | .raise e, _ => .raise e
  | .call q k, f => .call q fun r => (k r).bind f

/-- Python's `try … except Exception as e: h e`. -/
def catchWith : Prog Q A ε α → (ε → Prog Q A ε α) → Prog Q A ε α
  | .ret a, _ => .ret a
  | .raise e, h => h e
  | .call q k, h => .call q fun r => (k r).catchWith h

instance : Monad (Prog Q A ε) where
  pure := .ret
  bind := bind

instance : MonadExceptOf ε (Prog Q A ε) where
  throw := .raise
  tryCatch := catchWith

/-- Send one statement; a fault in the answer is raised. -/
def send (q : Q) : Prog Q A ε (A q) :=
  .call q fun
    | .ok a => .ret a
    | .error e => .raise e

/-- The program with its result dropped. -/
def run (p : Prog Q A ε α) : Prog Q A ε Unit := p.bind fun _ => .ret ()

@[simp] theorem pure_eq (a : α) : (pure a : Prog Q A ε α) = .ret a := rfl

@[simp] theorem throw_eq (e : ε) : (throw e : Prog Q A ε α) = .raise e := rfl

theorem run_bind (p : Prog Q A ε α) (f : α → Prog Q A ε β) :
    (p >>= f).run = p >>= fun a => (f a).run := by
  induction p with
  | ret a => rfl
  | raise e => rfl
  | call q k ih => exact congrArg (call q) (funext ih)

end Prog

/-! ## Machines -/

/-- A store `σ` shared by processes `ι`: `step i q s r s'` says that process `i` may send `q`
in `s`, get the answer `r`, and leave `s'`. A statement without a step is blocked. -/
structure Machine (Q : Type) (A : Q → Type) (ε σ ι : Type) where
  step : ι → (q : Q) → σ → Except ε (A q) → σ → Prop

variable {σ ι : Type}

/-- The machine that takes a step only where `c` allows it. -/
def Machine.restrict (M : Machine Q A ε σ ι) (c : ι → (q : Q) → σ → Except ε (A q) → Prop) :
    Machine Q A ε σ ι where
  step i q s r s' := M.step i q s r s' ∧ c i q s r

/-! ## Rely/guarantee -/

/-- A contract for the processes of a machine. `inv` holds between any two steps; `pre i q` is
what has to hold when `i` sends `q`, and is all that the others need to know about it; `rely i` is
what `i` can count on while the others act; `idle i` holds while `i` runs nothing. -/
structure Logic (M : Machine Q A ε σ ι) where
  inv : σ → Prop
  pre : ι → Q → σ → Prop
  rely : ι → σ → σ → Prop
  idle : ι → σ → Prop
  inv_step : ∀ {i q s r t}, inv s → pre i q s → M.step i q s r t → inv t
  rely_refl : ∀ i s, rely i s s
  rely_trans : ∀ {i s t u}, rely i s t → rely i t u → rely i s u
  rely_step : ∀ {i j q s r t}, i ≠ j → inv s → pre i q s → M.step i q s r t → rely j s t
  idle_rely : ∀ {i s t}, idle i s → rely i s t → idle i t

variable {M : Machine Q A ε σ ι}

/-- Process `i` may run the program from `s`: however the others act within `rely i`, each of
its statements is sent under its precondition, and it ends in `R` (returning) or `E` (raising). -/
def wp (L : Logic M) (i : ι) : Prog Q A ε α → (α → σ → Prop) → (ε → σ → Prop) → σ → Prop
  | .ret a, R, _, s => R a s
  | .raise e, _, E, s => E e s
  | .call q k, R, E, s =>
      ∀ t, L.rely i s t → L.inv t → L.pre i q t ∧ ∀ r u, M.step i q t r u → wp L i (k r) R E u

section Rules

variable {L : Logic M} {i : ι} {R R' : α → σ → Prop} {E E' : ε → σ → Prop} {s t : σ}

theorem wp_mono {p : Prog Q A ε α} (h : wp L i p R E s) (hR : ∀ a s, R a s → R' a s)
    (hE : ∀ e s, E e s → E' e s) : wp L i p R' E' s := by
  induction p generalizing s with
  | ret a => exact hR a s h
  | raise e => exact hE e s h
  | call q k ih =>
    intro t hst ht
    obtain ⟨hpre, hk⟩ := h t hst ht
    exact ⟨hpre, fun r u hstep => ih r (hk r u hstep)⟩

theorem wp_bind {p : Prog Q A ε α} {f : α → Prog Q A ε β} {R : β → σ → Prop}
    (h : wp L i p (fun a s => wp L i (f a) R E s) E s) : wp L i (p >>= f) R E s := by
  induction p generalizing s with
  | ret a => exact h
  | raise e => exact h
  | call q k ih =>
    intro t hst ht
    obtain ⟨hpre, hk⟩ := h t hst ht
    exact ⟨hpre, fun r u hstep => ih r (hk r u hstep)⟩

theorem wp_tryCatch {p : Prog Q A ε α} {h : ε → Prog Q A ε α}
    (hp : wp L i p R (fun e s => wp L i (h e) R E s) s) :
    wp L i (tryCatch p h) R E s := by
  induction p generalizing s with
  | ret a => exact hp
  | raise e => exact hp
  | call q k ih =>
    intro t hst ht
    obtain ⟨hpre, hk⟩ := hp t hst ht
    exact ⟨hpre, fun r u hstep => ih r (hk r u hstep)⟩

/-- One statement. -/
theorem wp_send {q : Q} {R : A q → σ → Prop}
    (h : ∀ t, L.rely i s t → L.inv t → L.pre i q t ∧ ∀ r u, M.step i q t r u →
      (∀ a, r = .ok a → R a u) ∧ ∀ e, r = .error e → E e u) :
    wp L i (Prog.send q) R E s := by
  intro t hst ht
  obtain ⟨hpre, hk⟩ := h t hst ht
  refine ⟨hpre, fun r u hstep => ?_⟩
  cases r with
  | ok a => exact (hk _ u hstep).1 a rfl
  | error e => exact (hk _ u hstep).2 e rfl

/-- The others may act before a program whose ends they cannot disturb. -/
theorem wp_stable {p : Prog Q A ε α} (h : wp L i p R E s) (hst : L.rely i s t)
    (hR : ∀ a {s t}, L.rely i s t → R a s → R a t)
    (hE : ∀ e {s t}, L.rely i s t → E e s → E e t) : wp L i p R E t := by
  cases p with
  | ret a => exact hR a hst h
  | raise e => exact hE e hst h
  | call q k => exact fun u htu => h u (L.rely_trans hst htu)

end Rules

/-! ## Worlds -/

/-- The shared store and what every process still has to run. -/
structure World (Q : Type) (A : Q → Type) (ε σ ι : Type) where
  store : σ
  running : ι → Option (Prog Q A ε Unit)

section Interleaving

variable [DecidableEq ι]

/-- One step of an interleaving in which the programs of `starts` may be started. -/
inductive Step (M : Machine Q A ε σ ι) (starts : Set (Prog Q A ε Unit)) :
    World Q A ε σ ι → World Q A ε σ ι → Prop
  | start {w : World Q A ε σ ι} (i : ι) (p : Prog Q A ε Unit) : p ∈ starts →
      w.running i = none → Step M starts w { w with running := Function.update w.running i (some p) }
  | call {w : World Q A ε σ ι} (i : ι) {q : Q} {k : Except ε (A q) → Prog Q A ε Unit}
      {r : Except ε (A q)} {s : σ} :
      w.running i = some (.call q k) → M.step i q w.store r s →
      Step M starts w ⟨s, Function.update w.running i (some (k r))⟩
  | returned {w : World Q A ε σ ι} (i : ι) : w.running i = some (.ret ()) →
      Step M starts w { w with running := Function.update w.running i none }
  | raised {w : World Q A ε σ ι} (i : ι) {e : ε} : w.running i = some (.raise e) →
      Step M starts w { w with running := Function.update w.running i none }

/-- The worlds reached from the stores of `init` with nothing running. -/
inductive Reach (M : Machine Q A ε σ ι) (starts : Set (Prog Q A ε Unit)) (init : σ → Prop) :
    World Q A ε σ ι → Prop
  | init {s : σ} : init s → Reach M starts init ⟨s, fun _ => none⟩
  | step {w w' : World Q A ε σ ι} : Reach M starts init w → Step M starts w w' →
      Reach M starts init w'

/-- No operation is in progress. -/
def World.Quiescent (w : World Q A ε σ ι) : Prop := ∀ i, w.running i = none

/-- What the contract says of process `i`. -/
def Logic.local (L : Logic M) (w : World Q A ε σ ι) (i : ι) : Prop :=
  match w.running i with
  | none => L.idle i w.store
  | some p => wp L i p (fun _ => L.idle i) (fun _ => L.idle i) w.store

/-- The contract of a program that may be started. -/
def Logic.Keeps (L : Logic M) (p : Prog Q A ε α) : Prop :=
  ∀ i s, L.inv s → L.idle i s → wp L i p (fun _ => L.idle i) (fun _ => L.idle i) s

variable {starts : Set (Prog Q A ε Unit)} {init : σ → Prop}

omit [DecidableEq ι] in
theorem Logic.Keeps.run {L : Logic M} {p : Prog Q A ε α} (h : L.Keeps p) : L.Keeps p.run :=
  fun i s hi hidle => wp_bind (h i s hi hidle)

omit [DecidableEq ι] in
/-- A step by another process keeps what the contract says of `j`. -/
theorem Logic.local_of_rely (L : Logic M) {w w' : World Q A ε σ ι} {j : ι}
    (hw : L.local w j) (hr : L.rely j w.store w'.store) (he : w'.running j = w.running j) :
    L.local w' j := by
  unfold Logic.local at hw ⊢
  rw [he]
  cases hp : w.running j with
  | none => rw [hp] at hw; exact L.idle_rely hw hr
  | some p =>
    rw [hp] at hw
    exact wp_stable hw hr (fun _ _ _ h hi => L.idle_rely hi h) (fun _ _ _ h hi => L.idle_rely hi h)

/-- One step keeps the invariant and the local assertions, and a statement is sent under its
precondition. -/
theorem Step.sound {L : Logic M} (hs : ∀ p ∈ starts, L.Keeps p) {w w' : World Q A ε σ ι}
    (h : Step M starts w w') (hi : L.inv w.store) (hl : ∀ i, L.local w i) :
    L.inv w'.store ∧ (∀ i, L.local w' i) ∧ (w'.store = w.store ∨
      ∃ i q r, L.pre i q w.store ∧ M.step i q w.store r w'.store) := by
  cases h with
  | start i p hp hn =>
    refine ⟨hi, fun j => ?_, Or.inl rfl⟩
    by_cases hj : j = i
    · subst hj
      have := hl j
      simp only [Logic.local, hn, Function.update_self] at this ⊢
      exact hs p hp j w.store hi this
    · exact L.local_of_rely (hl j) (L.rely_refl _ _) (Function.update_of_ne hj _ _)
  | call i hp hstep =>
    have hw := hl i
    simp only [Logic.local, hp] at hw
    obtain ⟨hpre, hk⟩ := hw _ (L.rely_refl _ _) hi
    refine ⟨L.inv_step hi hpre hstep, fun j => ?_, Or.inr ⟨i, _, _, hpre, hstep⟩⟩
    by_cases hj : j = i
    · subst hj
      simp only [Logic.local, Function.update_self]
      exact hk _ _ hstep
    · exact L.local_of_rely (hl j) (L.rely_step (Ne.symm hj) hi hpre hstep)
        (Function.update_of_ne hj _ _)
  | returned i hp | raised i hp =>
    refine ⟨hi, fun j => ?_, Or.inl rfl⟩
    by_cases hj : j = i
    · subst hj
      have := hl j
      simp only [Logic.local, hp, Function.update_self] at this ⊢
      exact this
    · exact L.local_of_rely (hl j) (L.rely_refl _ _) (Function.update_of_ne hj _ _)

/-- **Soundness of the contract.** -/
theorem Reach.sound {L : Logic M} (hs : ∀ p ∈ starts, L.Keeps p)
    (h0 : ∀ s, init s → L.inv s ∧ ∀ i, L.idle i s) {w : World Q A ε σ ι}
    (h : Reach M starts init w) : L.inv w.store ∧ ∀ i, L.local w i := by
  induction h with
  | init hi => exact h0 _ hi
  | step _ hstep ih =>
    obtain ⟨hu, hl, -⟩ := hstep.sound hs ih.1 ih.2
    exact ⟨hu, hl⟩

/-! ### Restricted runs -/

variable {c : ι → (q : Q) → σ → Except ε (A q) → Prop}

/-- A step of the machine that `c` restricts is a step of the machine. -/
theorem Step.of_restrict {w w' : World Q A ε σ ι} (h : Step (M.restrict c) starts w w') :
    Step M starts w w' := by
  cases h with
  | start i p hp hn => exact .start i p hp hn
  | call i hp hstep => exact .call i hp hstep.1
  | returned i hp => exact .returned i hp
  | raised i hp => exact .raised i hp

theorem Reach.of_restrict {w : World Q A ε σ ι} (h : Reach (M.restrict c) starts init w) :
    Reach M starts init w := by
  induction h with
  | init hi => exact .init hi
  | step _ hstep ih => exact ih.step hstep.of_restrict

/-- What a step of a restricted run does: nothing to the store, or a statement that is sent under
its precondition and that `c` allows. -/
theorem Reach.step_cases {L : Logic M} (hs : ∀ p ∈ starts, L.Keeps p)
    (h0 : ∀ s, init s → L.inv s ∧ ∀ i, L.idle i s) {w w' : World Q A ε σ ι}
    (h : Reach (M.restrict c) starts init w) (hstep : Step (M.restrict c) starts w w') :
    w'.store = w.store ∨ ∃ i q r,
      L.pre i q w.store ∧ M.step i q w.store r w'.store ∧ c i q w.store r := by
  have hw := h.of_restrict.sound hs h0
  cases hstep with
  | start | returned | raised => exact .inl rfl
  | call i hp hstep =>
    have hl := hw.2 i
    simp only [Logic.local, hp] at hl
    obtain ⟨hpre, -⟩ := hl _ (L.rely_refl _ _) hw.1
    exact .inr ⟨i, _, _, hpre, hstep.1, hstep.2⟩

/-- **Invariants of restricted runs.** What holds at first, and is preserved by every statement
that is sent under its precondition and that `c` allows, holds in every store reached. -/
theorem Reach.invariant {L : Logic M} (hs : ∀ p ∈ starts, L.Keeps p)
    (h0 : ∀ s, init s → L.inv s ∧ ∀ i, L.idle i s) {J : σ → Prop} (hJ0 : ∀ s, init s → J s)
    (hJ : ∀ i q s r t, L.inv s → L.inv t → L.pre i q s → M.step i q s r t → c i q s r →
      J s → J t)
    {w : World Q A ε σ ι} (h : Reach (M.restrict c) starts init w) : J w.store := by
  induction h with
  | init hi => exact hJ0 _ hi
  | step hw hstep ih =>
    rcases hw.step_cases hs h0 hstep with heq | ⟨i, q, r, hpre, hq, hc⟩
    · rw [heq]
      exact ih
    · have hinv := (hw.of_restrict.sound hs h0).1
      exact hJ i q _ r _ hinv (L.inv_step hinv hpre hq) hpre hq hc ih

end Interleaving

/-! ## One operation alone -/

/-- Process `i` runs the program from `s` to its end, with nobody else about. -/
inductive Exec (M : Machine Q A ε σ ι) (i : ι) : Prog Q A ε α → σ → Except ε α → σ → Prop
  | ret (a : α) (s : σ) : Exec M i (.ret a) s (.ok a) s
  | raise (e : ε) (s : σ) : Exec M i (.raise e) s (.error e) s
  | call {q : Q} {k : Except ε (A q) → Prog Q A ε α} {s t u : σ} {r : Except ε (A q)}
      {x : Except ε α} : M.step i q s r t → Exec M i (k r) t x u → Exec M i (.call q k) s x u

/-- The contract holds of an operation run alone. -/
theorem Exec.sound {L : Logic M} {i : ι} {p : Prog Q A ε α} {R : α → σ → Prop}
    {E : ε → σ → Prop} {s t : σ} {x : Except ε α} (h : Exec M i p s x t) (hi : L.inv s)
    (hp : wp L i p R E s) :
    L.inv t ∧ (∀ a, x = .ok a → R a t) ∧ ∀ e, x = .error e → E e t := by
  induction h with
  | ret a s => exact ⟨hi, fun b hb => (Except.ok.inj hb) ▸ hp, nofun⟩
  | raise e s => exact ⟨hi, nofun, fun e' he => (Except.error.inj he) ▸ hp⟩
  | call hstep _ ih =>
    obtain ⟨hpre, hk⟩ := hp _ (L.rely_refl _ _) hi
    exact ih (L.inv_step hi hpre hstep) (hk _ _ hstep)

section

variable {i : ι} {p : Prog Q A ε α} {f : α → Prog Q A ε β} {s t u : σ} {x : Except ε α}

theorem Exec.bind {y : Except ε β} {a : α} (hp : Exec M i p s (.ok a) t) (hf : Exec M i (f a) t y u) :
    Exec M i (p >>= f) s y u := by
  induction p generalizing s with
  | ret b => cases hp; exact hf
  | raise e => cases hp
  | call q k ih =>
    cases hp with
    | call hstep hp => exact .call hstep (ih _ hp)

theorem Exec.send {q : Q} {a : A q} (h : M.step i q s (.ok a) t) :
    Exec M i (Prog.send q) s (.ok a) t := .call h (.ret a t)

/-- How a sequence returns. -/
theorem Exec.bind_ok {b : β} (h : Exec M i (p >>= f) s (.ok b) u) :
    ∃ a t, Exec M i p s (.ok a) t ∧ Exec M i (f a) t (.ok b) u := by
  induction p generalizing s with
  | ret a => exact ⟨a, s, .ret a s, h⟩
  | raise e => cases h
  | call q k ih =>
    cases h with
    | call hstep h =>
      obtain ⟨a, t, hp, hf⟩ := ih _ h
      exact ⟨a, t, .call hstep hp, hf⟩

theorem Exec.send_ok {q : Q} {a : A q} (h : Exec M i (Prog.send q) s (.ok a) t) :
    M.step i q s (.ok a) t := by
  cases h with
  | @call _ _ _ _ _ r _ hstep h =>
    cases r with
    | ok b => cases h; exact hstep
    | error e => cases h

/-- How a sequence ends. -/
theorem Exec.bind_cases {y : Except ε β} (h : Exec M i (p >>= f) s y u) :
    (∃ a t, Exec M i p s (.ok a) t ∧ Exec M i (f a) t y u) ∨
      ∃ e, y = .error e ∧ Exec M i p s (.error e) u := by
  induction p generalizing s with
  | ret a => exact .inl ⟨a, s, .ret a s, h⟩
  | raise e =>
    cases h
    exact .inr ⟨e, rfl, .raise e _⟩
  | call q k ih =>
    cases h with
    | call hstep h =>
      rcases ih _ h with ⟨a, t, hp, hf⟩ | ⟨e, rfl, hp⟩
      · exact .inl ⟨a, t, .call hstep hp, hf⟩
      · exact .inr ⟨e, rfl, .call hstep hp⟩

/-- How a program with a handler ends. -/
theorem Exec.tryCatch_cases {g : ε → Prog Q A ε α} (h : Exec M i (tryCatch p g) s x u) :
    (∃ a, x = .ok a ∧ Exec M i p s (.ok a) u) ∨
      ∃ e t, Exec M i p s (.error e) t ∧ Exec M i (g e) t x u := by
  induction p generalizing s with
  | ret a =>
    cases h
    exact .inl ⟨a, rfl, .ret a _⟩
  | raise e => exact .inr ⟨e, s, .raise e s, h⟩
  | call q k ih =>
    cases h with
    | call hstep h =>
      rcases ih _ h with ⟨a, rfl, hp⟩ | ⟨e, t, hp, hg⟩
      · exact .inl ⟨a, rfl, .call hstep hp⟩
      · exact .inr ⟨e, t, .call hstep hp, hg⟩

theorem Exec.send_cases {q : Q} {x : Except ε (A q)} (h : Exec M i (Prog.send q) s x t) :
    M.step i q s x t := by
  cases h with
  | @call _ _ _ _ _ r _ hstep h =>
    cases r with
    | ok b => cases h; exact hstep
    | error e => cases h; exact hstep

end

/-! ## One process among others that may do anything -/

/-- One statement of a process: the store it was sent in, its answer, and the store it left. -/
structure Act (Q : Type) (A : Q → Type) (ε σ : Type) where
  q : Q
  before : σ
  answer : Except ε (A q)
  after : σ

/-- Process `i` runs the program until the second one is left. Between its statements the store is
whatever the others have made of it. -/
inductive Acts (M : Machine Q A ε σ ι) (i : ι) :
    Prog Q A ε α → List (Act Q A ε σ) → Prog Q A ε α → Prop
  | nil (p : Prog Q A ε α) : Acts M i p [] p
  | cons {q : Q} {k : Except ε (A q) → Prog Q A ε α} {s t : σ} {r : Except ε (A q)}
      {acts : List (Act Q A ε σ)} {p : Prog Q A ε α} : M.step i q s r t → Acts M i (k r) acts p →
      Acts M i (.call q k) (⟨q, s, r, t⟩ :: acts) p

/-- The program sends only what `P` allows, if its statements are answered as `c` says, and returns
only what `R` holds of. -/
def Sends (P : Q → Prop) (c : (q : Q) → Except ε (A q) → Prop) :
    Prog Q A ε α → (α → Prop) → Prop
  | .ret a, R => R a
  | .raise _, _ => True
  | .call q k, R => P q ∧ ∀ r, c q r → Sends P c (k r) R

section

variable {P : Q → Prop} {c : (q : Q) → Except ε (A q) → Prop}

theorem sends_mono {p : Prog Q A ε α} {R R' : α → Prop} (h : Sends P c p R)
    (hR : ∀ a, R a → R' a) : Sends P c p R' := by
  induction p with
  | ret a => exact hR a h
  | raise e => trivial
  | call q k ih => exact ⟨h.1, fun r hr => ih r (h.2 r hr)⟩

theorem sends_bind {p : Prog Q A ε α} {f : α → Prog Q A ε β} {R : β → Prop}
    (h : Sends P c p fun a => Sends P c (f a) R) : Sends P c (p >>= f) R := by
  induction p with
  | ret a => exact h
  | raise e => trivial
  | call q k ih => exact ⟨h.1, fun r hr => ih r (h.2 r hr)⟩

theorem sends_tryCatch {p : Prog Q A ε α} {h : ε → Prog Q A ε α} {R : α → Prop}
    (hp : Sends P c p R) (hh : ∀ e, Sends P c (h e) R) : Sends P c (tryCatch p h) R := by
  induction p with
  | ret a => exact hp
  | raise e => exact hh e
  | call q k ih => exact ⟨hp.1, fun r hr => ih r (hp.2 r hr)⟩

theorem sends_send {q : Q} {R : A q → Prop} (hq : P q) (hR : ∀ a, c q (.ok a) → R a) :
    Sends P c (Prog.send q) R := by
  refine ⟨hq, fun r hr => ?_⟩
  cases r with
  | ok a => exact hR a hr
  | error e => trivial

/-- What every statement that may be sent keeps is kept by a run of the program alone. -/
theorem Exec.keeps {i : ι} {p : Prog Q A ε α} {R : α → Prop} {s t : σ} {x : Except ε α}
    {I : σ → Prop} (h : Exec M i p s x t) (hp : Sends P (fun _ _ => True) p R)
    (hI : ∀ q s r t, P q → M.step i q s r t → I s → I t) (hs : I s) : I t := by
  induction h with
  | ret a s => exact hs
  | raise e s => exact hs
  | call hstep _ ih => exact ih (hp.2 _ trivial) (hI _ _ _ _ hp.1 hstep hs)

theorem Acts.step {i : ι} {p rest : Prog Q A ε α} {acts : List (Act Q A ε σ)}
    (h : Acts M i p acts rest) : ∀ a ∈ acts, M.step i a.q a.before a.answer a.after := by
  induction h with
  | nil p => simp
  | cons hstep _ ih => exact List.forall_mem_cons.2 ⟨hstep, ih⟩

/-- What a program may send is what its process sends. -/
theorem Acts.sends {i : ι} {p rest : Prog Q A ε α} {R : α → Prop} {acts : List (Act Q A ε σ)}
    (h : Acts M i p acts rest) (hc : ∀ a ∈ acts, c a.q a.answer) (hp : Sends P c p R) :
    ∀ a ∈ acts, P a.q := by
  induction h with
  | nil p => simp
  | cons hstep _ ih =>
    rw [List.forall_mem_cons] at hc ⊢
    exact ⟨hp.1, ih hc.2 (hp.2 _ hc.1)⟩

end

/-! ## An executable scheduler -/

/-- A way to answer statements that the machine allows; `none` where the statement is blocked. -/
structure Schedule (M : Machine Q A ε σ ι) where
  answer : ι → (q : Q) → σ → Option (Except ε (A q) × σ)
  sound : ∀ i q s r s', answer i q s = some (r, s') → M.step i q s r s'

/-- What the scheduler is told to do next. -/
inductive Move (Q : Type) (A : Q → Type) (ε ι : Type) where
  | start (i : ι) (p : Prog Q A ε Unit)
  | go (i : ι)

/-- The program a move starts, if it starts one. -/
def Move.program? : Move Q A ε ι → Option (Prog Q A ε Unit)
  | .start _ p => some p
  | .go _ => none

variable [DecidableEq ι]

/-- One move: start a program, run one statement, or clear away a program that has ended. -/
def Schedule.move (S : Schedule M) (w : World Q A ε σ ι) :
    Move Q A ε ι → Option (World Q A ε σ ι)
  | .start i p =>
      match w.running i with
      | none => some { w with running := Function.update w.running i (some p) }
      | some _ => none
  | .go i =>
      match w.running i with
      | none => none
      | some (.ret ()) | some (.raise _) =>
          some { w with running := Function.update w.running i none }
      | some (.call q k) =>
          (S.answer i q w.store).map fun (r, s) =>
            ⟨s, Function.update w.running i (some (k r))⟩

/-- A whole schedule. -/
def Schedule.run (S : Schedule M) : List (Move Q A ε ι) → World Q A ε σ ι →
    Option (World Q A ε σ ι)
  | [], w => some w
  | m :: ms, w => (S.move w m).bind (S.run ms)

theorem Schedule.move_step {S : Schedule M} {starts : Set (Prog Q A ε Unit)}
    {w w' : World Q A ε σ ι} {m : Move Q A ε ι} (hm : ∀ p, m.program? = some p → p ∈ starts)
    (h : S.move w m = some w') : Step M starts w w' := by
  cases m with
  | start i p =>
    cases hp : w.running i with
    | none =>
      simp only [Schedule.move, hp, Option.some.injEq] at h
      exact h ▸ Step.start i p (hm p rfl) hp
    | some p' => simp [Schedule.move, hp] at h
  | go i =>
    cases hp : w.running i with
    | none => simp [Schedule.move, hp] at h
    | some p =>
      cases p with
      | ret a =>
        simp only [Schedule.move, hp, Option.some.injEq] at h
        exact h ▸ Step.returned i hp
      | raise e =>
        simp only [Schedule.move, hp, Option.some.injEq] at h
        exact h ▸ Step.raised i hp
      | call q k =>
        simp only [Schedule.move, hp, Option.map_eq_some_iff] at h
        obtain ⟨⟨r, s⟩, ha, rfl⟩ := h
        exact Step.call i hp (S.sound i q w.store r s ha)

/-- Going on sends a statement, or clears a program away. -/
theorem Schedule.call_of_move {S : Schedule M} {w w' : World Q A ε σ ι} {i : ι}
    (h : S.move w (.go i) = some w') : w'.store = w.store ∨
      ∃ q k r, w.running i = some (.call q k) ∧ M.step i q w.store r w'.store := by
  cases hp : w.running i with
  | none => simp [Schedule.move, hp] at h
  | some p =>
    cases p with
    | ret a | raise e =>
      simp only [Schedule.move, hp, Option.some.injEq] at h
      exact .inl (h ▸ rfl)
    | call q k =>
      simp only [Schedule.move, hp, Option.map_eq_some_iff] at h
      obtain ⟨⟨r, s⟩, ha, rfl⟩ := h
      exact .inr ⟨q, k, r, rfl, S.sound i q w.store r s ha⟩

/-- A schedule that runs is a run. -/
theorem Schedule.run_reach {S : Schedule M} {starts : Set (Prog Q A ε Unit)} {init : σ → Prop}
    {ms : List (Move Q A ε ι)} {w w' : World Q A ε σ ι} (hw : Reach M starts init w)
    (hm : ∀ m ∈ ms, ∀ p, m.program? = some p → p ∈ starts) (h : S.run ms w = some w') :
    Reach M starts init w' := by
  induction ms generalizing w with
  | nil => cases h; exact hw
  | cons m ms ih =>
    simp only [Schedule.run, Option.bind_eq_some_iff] at h
    obtain ⟨w₁, h₁, h₂⟩ := h
    exact ih (hw.step (S.move_step (hm m List.mem_cons_self) h₁))
      (fun m' hm' => hm m' (List.mem_cons_of_mem _ hm')) h₂

/-- One operation alone, for at most so many statements. -/
def Schedule.exec (S : Schedule M) (i : ι) : ℕ → Prog Q A ε α → σ → Option (Except ε α × σ)
  | _, .ret a, s => some (.ok a, s)
  | _, .raise e, s => some (.error e, s)
  | 0, .call _ _, _ => none
  | n + 1, .call q k, s => (S.answer i q s).bind fun (r, t) => S.exec i n (k r) t

omit [DecidableEq ι] in
theorem Schedule.exec_sound {S : Schedule M} {i : ι} {n : ℕ} {p : Prog Q A ε α} {s t : σ}
    {x : Except ε α} (h : S.exec i n p s = some (x, t)) : Exec M i p s x t := by
  induction n generalizing p s with
  | zero =>
    cases p with
    | ret a => cases h; exact .ret _ _
    | raise e => cases h; exact .raise _ _
    | call q k => cases h
  | succ n ih =>
    cases p with
    | ret a => cases h; exact .ret _ _
    | raise e => cases h; exact .raise _ _
    | call q k =>
      simp only [Schedule.exec, Option.bind_eq_some_iff] at h
      obtain ⟨⟨r, u⟩, hanswer, h⟩ := h
      exact .call (S.sound i q s r u hanswer) (ih h)

/-- The scheduler that goes on only where `c` allows it. -/
def Schedule.restrict (S : Schedule M) (c : ι → (q : Q) → σ → Except ε (A q) → Bool) :
    Schedule (M.restrict fun i q s r => c i q s r = true) where
  answer i q s := (S.answer i q s).filter fun e => c i q s e.1
  sound i q s r t h := by
    obtain ⟨hanswer, hc⟩ := Option.filter_eq_some_iff.1 h
    exact ⟨S.sound i q s r t hanswer, hc⟩

/-- What a process does alone, for at most so many statements, and what is left of its program. -/
def Schedule.acts (S : Schedule M) (i : ι) :
    ℕ → Prog Q A ε α → σ → List (Act Q A ε σ) × Prog Q A ε α
  | n + 1, .call q k, s =>
    match S.answer i q s with
    | some (r, t) => ((⟨q, s, r, t⟩ :: (S.acts i n (k r) t).1), (S.acts i n (k r) t).2)
    | none => ([], .call q k)
  | _, p, _ => ([], p)

omit [DecidableEq ι] in
theorem Schedule.acts_sound (S : Schedule M) (i : ι) (n : ℕ) (p : Prog Q A ε α) (s : σ) :
    Acts M i p (S.acts i n p s).1 (S.acts i n p s).2 := by
  induction n generalizing p s with
  | zero => exact .nil p
  | succ n ih =>
    cases p with
    | ret a => exact .nil _
    | raise e => exact .nil _
    | call q k =>
      rw [Schedule.acts]
      split
      · next r t h => exact .cons (S.sound i q s r t h) (ih (k r) t)
      · exact .nil _

/-! ### Operations one after the other -/

/-- Run what process `i` has left, for at most so many statements. -/
def Schedule.finish (S : Schedule M) (i : ι) : ℕ → World Q A ε σ ι → World Q A ε σ ι
  | 0, w => w
  | n + 1, w =>
    match S.move w (.go i) with
    | some w' => S.finish i n w'
    | none => w

/-- Start programs, each when the one before has been run for at most `fuel` statements. -/
def Schedule.perform (S : Schedule M) (fuel : ℕ) :
    List (ι × Prog Q A ε Unit) → World Q A ε σ ι → World Q A ε σ ι
  | [], w => w
  | (i, p) :: ps, w =>
    match S.move w (.start i p) with
    | some w' => S.perform fuel ps (S.finish i fuel w')
    | none => w

section

variable {S : Schedule M} {starts : Set (Prog Q A ε Unit)} {init : σ → Prop}
  {w : World Q A ε σ ι}

theorem Schedule.finish_reach {i : ι} {n : ℕ} (hw : Reach M starts init w) :
    Reach M starts init (S.finish i n w) := by
  induction n generalizing w with
  | zero => exact hw
  | succ n ih =>
    rw [Schedule.finish]
    split
    · next w' h => exact ih (hw.step (S.move_step (by simp [Move.program?]) h))
    · exact hw

/-- Operations that are performed are a run. -/
theorem Schedule.perform_reach {fuel : ℕ} {ps : List (ι × Prog Q A ε Unit)}
    (hw : Reach M starts init w) (hps : ∀ p ∈ ps, p.2 ∈ starts) :
    Reach M starts init (S.perform fuel ps w) := by
  induction ps generalizing w with
  | nil => exact hw
  | cons p ps ih =>
    rw [Schedule.perform]
    split
    · next w' h =>
      have hp := hps p List.mem_cons_self
      refine ih (Schedule.finish_reach (hw.step (S.move_step (fun q hq => ?_) h)))
        fun q hq => hps q (List.mem_cons_of_mem _ hq)
      rw [← Option.some.inj hq]
      exact hp
    · exact hw

/-! ### Operations that take turns -/

/-- A turn of process `i`: it starts a program, or goes on with what it has, for at most so many
statements. -/
structure Turn (Q : Type) (A : Q → Type) (ε ι : Type) where
  i : ι
  starts : Option (Prog Q A ε Unit) := none
  statements : ℕ

/-- A program is started where there is one to start, and the process is idle. -/
def Schedule.begin (S : Schedule M) (w : World Q A ε σ ι) (t : Turn Q A ε ι) : World Q A ε σ ι :=
  (t.starts.bind fun p => S.move w (.start t.i p)).getD w

def Schedule.play (S : Schedule M) : List (Turn Q A ε ι) → World Q A ε σ ι → World Q A ε σ ι
  | [], w => w
  | t :: ts, w => S.play ts (S.finish t.i t.statements (S.begin w t))

theorem Schedule.begin_reach {t : Turn Q A ε ι} (hw : Reach M starts init w)
    (ht : ∀ p ∈ t.starts, p ∈ starts) : Reach M starts init (S.begin w t) := by
  unfold Schedule.begin
  cases hp : t.starts with
  | none => exact hw
  | some p =>
    rw [Option.bind_some]
    cases h : S.move w (.start t.i p) with
    | none => exact hw
    | some w' =>
      refine hw.step (S.move_step (fun q hq => ?_) h)
      rw [← Option.some.inj hq]
      exact ht p hp

/-- Turns that are played are a run. -/
theorem Schedule.play_reach {ts : List (Turn Q A ε ι)} (hw : Reach M starts init w)
    (hts : ∀ t ∈ ts, ∀ p ∈ t.starts, p ∈ starts) : Reach M starts init (S.play ts w) := by
  induction ts generalizing w with
  | nil => exact hw
  | cons t ts ih =>
    refine ih (Schedule.finish_reach (Schedule.begin_reach hw ?_)) ?_
    · exact hts t List.mem_cons_self
    · exact fun t' ht' => hts t' (List.mem_cons_of_mem _ ht')

end

end Program
