import PayReality.Lib.Reports
import PayReality.Simulation.Opa

/-!
# Isolation

A dry run or a batch asks OPA about its own bundle, whatever is loaded and deleted meanwhile: its package
has a random name, and nobody else loads anything there.

* `opaLogic`: what a process may do to the modules of the names it has drawn, and what the others leave
  alone.

**Main results** `dryRun_isolated` and `runBatch_isolated`: in every run, what they return is what OPA says
of their bundle alone. `throwaway_cleared`: unless a deletion fails, or the loading of a batch, they leave
nothing behind. `batch_orphaned`: a batch whose loading fails may leave its bundle.
-/

namespace PayReality

open Program Rego RegoGenerator

/-! ## The module of a random name -/

namespace Opa

variable {H : OpaHost} {k k' : Throwaway} {token token' : Uuid}

theorem policyId_inj (hhex : H.Hex) (h : policyId H k token = policyId H k' token') :
    k = k' ∧ token = token' := by
  have hlist := congrArg String.toList h
  unfold policyId at hlist
  rw [String.toList_append, String.toList_append, String.toList_append, String.toList_append] at hlist
  have hk : k = k' := by
    cases k <;> cases k'
    · rfl
    · exact absurd (List.cons.inj hlist).1 (by decide)
    · exact absurd (List.cons.inj hlist).1 (by decide)
    · rfl
  subst hk
  exact ⟨rfl, hhex.inj (String.toList_inj.1 (List.append_cancel_left hlist))⟩

theorem packagePath_inj (hhex : H.Hex)
    (h : ((packagePath H k token).map String.toList).isPrefixOf
      ((packagePath H k' token').map String.toList) = true) : k = k' ∧ token = token' := by
  have hlist := (List.isPrefixOf_iff_prefix.1 h).eq_of_length rfl
  simp only [packagePath, List.map_cons, List.map_nil, List.cons.injEq, and_true, true_and,
    String.toList_inj] at hlist
  obtain ⟨hname, hhexes⟩ := hlist
  have hk : k = k' := by
    cases k <;> cases k'
    · rfl
    · exact absurd hname (by decide)
    · exact absurd hname (by decide)
    · rfl
  refine ⟨hk, hhex.inj (String.toList_inj.1 ?_)⟩
  have hlist := congrArg String.toList hhexes
  rw [String.toList_append, String.toList_append] at hlist
  exact List.append_cancel_left hlist

end Opa

namespace OpaStore

variable {ι : Type} {H : OpaHost} {s : OpaStore ι} {k : Throwaway} {token : Uuid}
  {regoSource : Source}

/-- One module. -/
def single (policyId : String) (regoSource : Source) : String → Option Source := fun id =>
  if id = policyId then some regoSource else none

/-- Nothing else is at the path of a random name. -/
theorem Sorted.below_throwaway (hhex : H.Hex) (h : s.Sorted H)
    (hloaded : s.policies (Opa.policyId H k token) = some regoSource) :
    s.below (Opa.packagePath H k token) = single (Opa.policyId H k token) regoSource := by
  funext id
  unfold below single
  by_cases hid : id = Opa.policyId H k token
  · subst hid
    rw [hloaded, if_pos rfl]
    rcases h _ _ hloaded with ⟨o, heq, -⟩ | ⟨k', token', heq, hpackage⟩
    · exact absurd heq (Opa.policyId_ne k token o)
    · obtain ⟨rfl, rfl⟩ := Opa.policyId_inj hhex heq
      rw [Option.filter_some, hpackage, List.isPrefixOf_iff_prefix.2 (List.prefix_refl _)]
      rfl
  · rw [if_neg hid]
    cases hsource : s.policies id with
    | none => rfl
    | some regoSource' =>
      have hnot : ((Opa.packagePath H k token).map String.toList).isPrefixOf (packageOf regoSource') =
          false := by
        rw [Bool.eq_false_iff]
        intro hstart
        rcases h id _ hsource with ⟨o, rfl, hpackage⟩ | ⟨k', token', rfl, hpackage⟩
        · rw [hpackage] at hstart
          cases o <;> cases k <;> cases hstart
        · rw [hpackage] at hstart
          obtain ⟨rfl, rfl⟩ := Opa.packagePath_inj hhex hstart
          exact hid rfl
      rw [Option.filter_some, hnot]
      rfl

end OpaStore

/-! ## The contract -/

/-- What a process may send that has drawn the names of `own`. -/
inductive OpaStatement.By (H : OpaHost) (own : Uuid → Prop) : OpaStatement → Prop where
  | live {q : OpaStatement} (h : q.AboutLive H) : By H own q
  | uuid4 : By H own .uuid4
  | put {k : Throwaway} {token : Uuid} {regoSource : Source} (hown : own token)
      (h : packageOf regoSource = (Opa.packagePath H k token).map String.toList) :
      By H own (.put (Opa.policyId H k token) regoSource)
  | query (k : Throwaway) (token : Uuid) (input : Json) :
      By H own (.query (Opa.packagePath H k token) input)
  | delete {k : Throwaway} {token : Uuid} (hown : own token) :
      By H own (.delete (Opa.policyId H k token))

theorem OpaStatement.By.about {H : OpaHost} {own : Uuid → Prop} {q : OpaStatement} (h : q.By H own) :
    q.AboutLive H ∨ q.AboutThrowaway H := by
  cases h with
  | live h => exact .inl h
  | uuid4 => exact .inr .uuid4
  | put _ h => exact .inr (.put h)
  | query k token input => exact .inr (.query k token input)
  | delete => exact .inr (.delete _ _)

/-- A deletion is carried out, and so is the loading of a batch. -/
def OpaStatement.Carried (H : OpaHost) : (q : OpaStatement) → Except PyError q.Answer → Prop
  | .delete _, r => r = .ok ()
  | .put id _, r => (∃ token, id = Opa.policyId H .batch token) → r = .ok ()
  | _, _ => True

namespace OpaStore

variable {ι : Type} {H : OpaHost}

/-- Every module is in its package, and no name has one that was not drawn. -/
structure Kept (H : OpaHost) (s : OpaStore ι) : Prop where
  sorted : s.Sorted H
  undrawn : ∀ {k token}, s.drawnBy token = none → s.policies (Opa.policyId H k token) = none

/-- What others leave alone: the names of a process, and their modules. -/
structure Leaves (H : OpaHost) (i : ι) (s t : OpaStore ι) : Prop where
  drawn : ∀ token, t.drawnBy token = some i ↔ s.drawnBy token = some i
  policies : ∀ {k token}, s.drawnBy token = some i →
    t.policies (Opa.policyId H k token) = s.policies (Opa.policyId H k token)

/-- The names of a process have no modules. -/
def Cleared (H : OpaHost) (i : ι) (s : OpaStore ι) : Prop :=
  ∀ k token, s.drawnBy token = some i → s.policies (Opa.policyId H k token) = none

theorem Leaves.cleared {i : ι} {s t : OpaStore ι} (h : Leaves H i s t) (hs : s.Cleared H i) :
    t.Cleared H i := by
  intro k token hdrawn
  have hbefore := (h.drawn token).1 hdrawn
  rw [h.policies hbefore]
  exact hs k token hbefore

variable {s t s' : OpaStore ι} {id : String} {source : Option Source} {r : Except PyError Unit}

theorem policies_of_changed {id' : String} (h : Changed s (s.load id source) r t) (hne : id' ≠ id) :
    t.policies id' = s.policies id' := by
  cases h with
  | done | lost => exact load_of_ne hne
  | failed => rfl

theorem drawnBy_of_changed (h : Changed s (s.load id source) r t) : t.drawnBy = s.drawnBy := by
  cases h <;> rfl

/-- A change of one module leaves the names of others alone. -/
theorem leaves_of_changed {j : ι} (h : Changed s (s.load id source) r t)
    (hother : ∀ k token, s.drawnBy token = some j → Opa.policyId H k token ≠ id) : Leaves H j s t where
  drawn token := by rw [drawnBy_of_changed h]
  policies hdrawn := policies_of_changed h (hother _ _ hdrawn)

theorem undrawn_of_changed (hs : s.Kept H) (h : Changed s (s.load id source) r t)
    (hdrawn : ∀ k token, s.drawnBy token = none → Opa.policyId H k token ≠ id) {k : Throwaway}
    {token : Uuid} (hnone : t.drawnBy token = none) : t.policies (Opa.policyId H k token) = none := by
  rw [drawnBy_of_changed h] at hnone
  rw [policies_of_changed h (hdrawn k token hnone)]
  exact hs.undrawn hnone

end OpaStore

/-- The contract of dry runs and batches, where steps are as `c` says; `tidy` is whether they leave
nothing behind. -/
def opaLogic {H : OpaHost} (hhex : H.Hex) (ι : Type)
    (c : ι → (q : OpaStatement) → OpaStore ι → Except PyError q.Answer → Prop) (tidy : Prop) :
    Logic ((opaMachine H ι).restrict c) where
  inv := OpaStore.Kept H
  pre i q s := q.By H fun token => s.drawnBy token = some i
  rely := OpaStore.Leaves H
  idle i s := tidy → s.Cleared H i
  inv_step := by
    rintro i q s r t hs hq ⟨hstep, -⟩
    refine ⟨(opa_erases H ι).keeps hs.sorted hq.about hstep, fun {k token} hnone => ?_⟩
    cases hq with
    | live hlive =>
      cases hlive with
      | put h => exact OpaStore.undrawn_of_changed hs hstep (fun k token _ => Opa.policyId_ne k token _) hnone
      | query =>
        obtain rfl := hstep.1
        exact hs.undrawn hnone
      | delete o =>
        exact OpaStore.undrawn_of_changed hs hstep (fun k token _ => Opa.policyId_ne k token o) hnone
    | uuid4 =>
      obtain ⟨token', hfresh, -, rfl⟩ := hstep
      by_cases htoken : token = token'
      · subst htoken
        exact hs.undrawn hfresh
      · exact hs.undrawn ((Function.update_of_ne htoken ..).symm.trans hnone)
    | put hown h =>
      refine OpaStore.undrawn_of_changed hs hstep (fun k' token' hnone' heq => ?_) hnone
      obtain ⟨-, rfl⟩ := Opa.policyId_inj hhex heq
      rw [hown] at hnone'
      cases hnone'
    | query =>
      obtain rfl := hstep.1
      exact hs.undrawn hnone
    | delete hown =>
      refine OpaStore.undrawn_of_changed hs hstep (fun k' token' hnone' heq => ?_) hnone
      obtain ⟨-, rfl⟩ := Opa.policyId_inj hhex heq
      rw [hown] at hnone'
      cases hnone'
  rely_refl i s := ⟨fun _ => Iff.rfl, fun _ => rfl⟩
  rely_trans h h' := ⟨fun token => (h'.drawn token).trans (h.drawn token), fun hdrawn =>
    (h'.policies ((h.drawn _).2 hdrawn)).trans (h.policies hdrawn)⟩
  rely_step := by
    rintro i j q s r t hij hs hq ⟨hstep, -⟩
    cases hq with
    | live hlive =>
      cases hlive with
      | put h => exact OpaStore.leaves_of_changed hstep fun k token _ => Opa.policyId_ne k token _
      | query =>
        obtain rfl := hstep.1
        exact ⟨fun _ => Iff.rfl, fun _ => rfl⟩
      | delete o => exact OpaStore.leaves_of_changed hstep fun k token _ => Opa.policyId_ne k token o
    | uuid4 =>
      obtain ⟨token', hfresh, -, rfl⟩ := hstep
      refine ⟨fun token => ?_, fun _ => rfl⟩
      by_cases htoken : token = token'
      · subst htoken
        show Function.update s.drawnBy token (some i) token = some j ↔ _
        rw [Function.update_self, hfresh]
        simp [hij]
      · show Function.update s.drawnBy token' (some i) token = some j ↔ _
        rw [Function.update_of_ne htoken]
    | put hown h =>
      refine OpaStore.leaves_of_changed hstep fun k' token' hdrawn heq => ?_
      obtain ⟨-, rfl⟩ := Opa.policyId_inj hhex heq
      exact hij (Option.some.inj (hown.symm.trans hdrawn))
    | query =>
      obtain rfl := hstep.1
      exact ⟨fun _ => Iff.rfl, fun _ => rfl⟩
    | delete hown =>
      refine OpaStore.leaves_of_changed hstep fun k' token' hdrawn heq => ?_
      obtain ⟨-, rfl⟩ := Opa.policyId_inj hhex heq
      exact hij (Option.some.inj (hown.symm.trans hdrawn))
  idle_rely h hst htidy := hst.cleared (h htidy)

/-! ## Programs -/

namespace Opa

section

variable {H : OpaHost} {hhex : H.Hex} {ι : Type}
  {c : ι → (q : OpaStatement) → OpaStore ι → Except PyError q.Answer → Prop} {tidy : Prop} {i : ι}
  {s : OpaStore ι} {k : Throwaway} {token : Uuid} {x : Option Source} {α β : Type}
  {f : α → OpaService β} {R : β → OpaStore ι → Prop} {E : PyError → OpaStore ι → Prop}

/-- The process has drawn this name, and `x` is its module; its other names have none. -/
structure Holds (H : OpaHost) (tidy : Prop) (i : ι) (k : Throwaway) (token : Uuid) (x : Option Source)
    (s : OpaStore ι) : Prop where
  own : s.drawnBy token = some i
  loaded : s.policies (policyId H k token) = x
  others : tidy → ∀ {k' token'}, s.drawnBy token' = some i → ¬ (k' = k ∧ token' = token) →
    s.policies (policyId H k' token') = none

theorem Holds.leaves {t : OpaStore ι} (h : Holds H tidy i k token x s) (hst : OpaStore.Leaves H i s t) :
    Holds H tidy i k token x t where
  own := (hst.drawn token).2 h.own
  loaded := (hst.policies h.own).trans h.loaded
  others htidy k' token' hdrawn hne := by
    have hbefore := (hst.drawn token').1 hdrawn
    rw [hst.policies hbefore]
    exact h.others htidy hbefore hne

/-- Nothing but the module of this name has changed. -/
theorem Holds.load (hhex : H.Hex) (h : Holds H tidy i k token x s) (y : Option Source) :
    Holds H tidy i k token y (s.load (policyId H k token) y) where
  own := h.own
  loaded := OpaStore.load_self
  others htidy k' token' hdrawn hne := by
    rw [OpaStore.load_of_ne fun heq => hne (policyId_inj hhex heq)]
    exact h.others htidy hdrawn hne

/-- A name without a module is tidy. -/
theorem Holds.cleared (h : Holds H tidy i k token none s) (htidy : tidy) : s.Cleared H i := by
  intro k' token' hdrawn
  by_cases heq : k' = k ∧ token' = token
  · obtain ⟨rfl, rfl⟩ := heq
    exact h.loaded
  · exact h.others htidy hdrawn heq

/-- A name is drawn. -/
theorem wp_uuid4 {f : Uuid → OpaService β} (hs : tidy → s.Cleared H i)
    (h : ∀ token t, (∀ k, Holds H tidy i k token none t) → wp (opaLogic hhex ι c tidy) i (f token) R E t) :
    wp (opaLogic hhex ι c tidy) i (send .uuid4 >>= f) R E s := by
  refine wp_bind (wp_send fun t hst ht => ⟨.uuid4, ?_⟩)
  rintro r u ⟨⟨token, hfresh, rfl, rfl⟩, -⟩
  refine ⟨fun a ha => ?_, fun e he => by cases he⟩
  obtain rfl := Except.ok.inj ha
  refine h _ _ fun k => ⟨Function.update_self .., ht.undrawn hfresh, fun htidy k' token' hdrawn _ => ?_⟩
  by_cases htoken : token' = token
  · subst htoken
    exact ht.undrawn hfresh
  · refine (hst.cleared (hs htidy)) k' token' ?_
    exact (Function.update_of_ne htoken ..).symm.trans hdrawn

/-- A bundle is loaded under its name; a failure may have loaded it too. -/
theorem wp_put {regoSource : Source} {R : Unit → OpaStore ι → Prop} (hs : Holds H tidy i k token none s)
    (hpackage : packageOf regoSource = (packagePath H k token).map String.toList)
    (h : ∀ t, Holds H tidy i k token (some regoSource) t → R () t)
    (hE : ∀ u x t, Holds H tidy i k token x t →
      c i (.put (policyId H k token) regoSource) u (.error .httpError) → E .httpError t) :
    wp (opaLogic hhex ι c tidy) i (send (.put (policyId H k token) regoSource)) R E s := by
  refine wp_send fun t hst ht => ?_
  have hholds := hs.leaves hst
  refine ⟨.put hholds.own hpackage, ?_⟩
  rintro r u ⟨hchanged, hc⟩
  cases hchanged with
  | done => exact ⟨fun _ _ => h _ (hholds.load hhex _), fun e he => by cases he⟩
  | lost =>
    refine ⟨fun _ ha => by (cases ha), fun e he => ?_⟩
    obtain rfl := Except.error.inj he
    exact hE _ _ _ (hholds.load hhex _) hc
  | failed =>
    refine ⟨fun _ ha => by (cases ha), fun e he => ?_⟩
    obtain rfl := Except.error.inj he
    exact hE _ _ _ hholds hc

/-- What OPA may reply about the module of a name alone. -/
inductive RepliesTo (H : OpaHost) (k : Throwaway) (token : Uuid) (regoSource : Source) (input : Json) :
    OpaReply → Prop where
  | timeout : RepliesTo H k token regoSource input .timeout
  | transportError : RepliesTo H k token regoSource input .transportError
  | reply : RepliesTo H k token regoSource input
      (H.reply (packagePath H k token) (OpaStore.single (policyId H k token) regoSource) input)

/-- A query about the module of a name. -/
theorem wp_query {regoSource : Source} {input : Json} {f : OpaReply → OpaService β}
    (hs : Holds H tidy i k token (some regoSource) s)
    (h : ∀ reply t, RepliesTo H k token regoSource input reply →
      Holds H tidy i k token (some regoSource) t → wp (opaLogic hhex ι c tidy) i (f reply) R E t) :
    wp (opaLogic hhex ι c tidy) i (send (.query (packagePath H k token) input) >>= f) R E s := by
  refine wp_bind (wp_send fun t hst ht => ⟨.query k token input, ?_⟩)
  have hholds := hs.leaves hst
  rintro r u ⟨⟨rfl, hr⟩, -⟩
  rw [ht.sorted.below_throwaway hhex hholds.loaded] at hr
  rcases hr with rfl | rfl | rfl
  · exact ⟨fun a ha => Except.ok.inj ha ▸ h _ _ .timeout hholds, fun e he => by cases he⟩
  · exact ⟨fun a ha => Except.ok.inj ha ▸ h _ _ .transportError hholds, fun e he => by cases he⟩
  · exact ⟨fun a ha => Except.ok.inj ha ▸ h _ _ .reply hholds, fun e he => by cases he⟩

variable (hc : tidy → ∀ i q s r, c i q s r → q.Carried H r)

include hc

/-- Whatever a program does with the module of a name, it is deleted at the end. -/
theorem wp_finallyDelete {p : OpaService α} {Q : α → Prop}
    (h : wp (opaLogic hhex ι c tidy) i p (fun a t => Q a ∧ ∃ x, Holds H tidy i k token x t)
      (fun _ t => ∃ x, Holds H tidy i k token x t) s) :
    wp (opaLogic hhex ι c tidy) i (finallyDelete (policyId H k token) p)
      (fun a t => (tidy → t.Cleared H i) ∧ Q a) (fun _ t => tidy → t.Cleared H i) s := by
  have hdelete : ∀ (x : Except PyError α), (∀ a, x = .ok a → Q a) → ∀ t,
      (∃ y, Holds H tidy i k token y t) →
      wp (opaLogic hhex ι c tidy) i
        (tryCatch (send (.delete (policyId H k token)))
          (fun e => if e = .httpError then pure () else throw e) >>= fun _ => lift x)
        (fun a t => (tidy → t.Cleared H i) ∧ Q a) (fun _ t => tidy → t.Cleared H i) t := by
    rintro x hx t ⟨y, hholds⟩
    have hend : ∀ t, (tidy → t.Cleared H i) → wp (opaLogic hhex ι c tidy) i (lift x)
        (fun a t => (tidy → t.Cleared H i) ∧ Q a) (fun _ t => tidy → t.Cleared H i) t := by
      intro t ht
      cases x with
      | ok a => exact ⟨ht, hx a rfl⟩
      | error e => exact ht
    refine wp_bind (wp_tryCatch (wp_send fun u hst hu => ?_))
    have hholds' := hholds.leaves hst
    refine ⟨.delete hholds'.own, ?_⟩
    rintro r v ⟨hchanged, hcarried⟩
    have hfailed : r ≠ .ok () → ¬ tidy := fun hr htidy => hr (hc htidy _ _ _ _ hcarried)
    cases hchanged with
    | done =>
      exact ⟨fun _ _ => hend _ ((hholds'.load hhex none).cleared), fun e he => by cases he⟩
    | lost | failed =>
      refine ⟨fun _ ha => by (cases ha), fun e he => ?_⟩
      obtain rfl := Except.error.inj he
      rw [if_pos rfl]
      exact hend _ fun htidy => absurd htidy (hfailed (by simp))
  refine wp_bind (wp_tryCatch (wp_bind (wp_mono h ?_ ?_)))
  · rintro a t ⟨ha, hholds⟩
    exact hdelete (.ok a) (fun a' ha' => Except.ok.inj ha' ▸ ha) t hholds
  · intro e t hholds
    exact hdelete (.error e) (fun a' ha' => by cases ha') t hholds

end

end Opa

/-! ### What is returned -/

/-- A dry run has the verdict on its own bundle. -/
def Opa.DryRunAlone (H : OpaHost) (b : BuiltBundle) (sampleInput : Json) (a : DryRunResult) : Prop :=
  ∃ token regoSource,
    BundleBuilder.retargetPackage b.bundle.regoSource (packagePath H .dryRun token) = some regoSource ∧
    dryRunResult (H.reply (packagePath H .dryRun token)
      (OpaStore.single (policyId H .dryRun token) regoSource) sampleInput) = .ok a

/-- So has every row of a batch that was answered. -/
def Opa.BatchAlone (H : OpaHost) (b : BuiltBundle) (inputs : List Json)
    (xs : List (Except PyError Json)) : Prop :=
  ∃ token regoSource,
    BundleBuilder.retargetPackage b.bundle.regoSource (packagePath H .batch token) = some regoSource ∧
    List.Forall₂ (fun inputDoc x => x = .error .dryRun ∨
      x = batchResult (H.reply (packagePath H .batch token)
        (OpaStore.single (policyId H .batch token) regoSource) inputDoc)) inputs xs

namespace Opa

section

variable {H : OpaHost} {hhex : H.Hex} {ι : Type}
  {c : ι → (q : OpaStatement) → OpaStore ι → Except PyError q.Answer → Prop} {tidy : Prop} {i : ι}
  {s : OpaStore ι} {k : Throwaway} {token : Uuid} {α : Type}

theorem wp_lift {x : Except PyError α} {R : α → OpaStore ι → Prop} {E : PyError → OpaStore ι → Prop}
    (hR : ∀ a, x = .ok a → R a s) (hE : ∀ e, E e s) : wp (opaLogic hhex ι c tidy) i (lift x) R E s := by
  cases x with
  | ok a => exact hR a rfl
  | error e => exact hE e

theorem wp_raisingDryRun {p : OpaService α} {R : α → OpaStore ι → Prop} {E : OpaStore ι → Prop}
    (h : wp (opaLogic hhex ι c tidy) i p R (fun _ => E) s) :
    wp (opaLogic hhex ι c tidy) i (raisingDryRun p) R (fun _ => E) s :=
  wp_tryCatch (wp_mono h (fun _ _ h => h) fun _ _ h => h)

variable (hc : tidy → ∀ i q s r, c i q s r → q.Carried H r)

include hc

theorem wp_dryRun (b : BuiltBundle) (sampleInput : Json) (hs : tidy → s.Cleared H i) :
    wp (opaLogic hhex ι c tidy) i (dryRun H b.bundle sampleInput)
      (fun a t => (tidy → t.Cleared H i) ∧ DryRunAlone H b sampleInput a)
      (fun _ t => tidy → t.Cleared H i) s := by
  refine wp_uuid4 hs fun token t ht => ?_
  cases hrewritten : BundleBuilder.retargetPackage b.bundle.regoSource (packagePath H .dryRun token) with
  | none => exact (ht .dryRun).cleared
  | some rewritten =>
    have hpackage := packageOf_retargetPackage (by simp [packagePath])
      (identifiers_packagePath hhex .dryRun token) hrewritten
    refine wp_finallyDelete hc (wp_raisingDryRun ?_)
    refine wp_bind (wp_put (ht .dryRun) hpackage (fun t ht => ?_) fun _ x t ht _ => ⟨x, ht⟩)
    refine wp_query ht fun reply t hreply ht => ?_
    refine wp_lift (fun a ha => ⟨⟨token, rewritten, hrewritten, ?_⟩, _, ht⟩) fun _ => ⟨_, ht⟩
    cases hreply with
    | timeout | transportError => cases ha
    | reply => exact ha

omit hc in
theorem wp_rows {regoSource : Source} (inputs : List Json)
    (hs : Holds H tidy i .batch token (some regoSource) s) :
    wp (opaLogic hhex ι c tidy) i (rows (packagePath H .batch token) inputs)
      (fun xs t => List.Forall₂ (fun inputDoc x => x = .error .dryRun ∨
          x = batchResult (H.reply (packagePath H .batch token)
            (OpaStore.single (policyId H .batch token) regoSource) inputDoc)) inputs xs ∧
        Holds H tidy i .batch token (some regoSource) t)
      (fun _ t => Holds H tidy i .batch token (some regoSource) t) s := by
  induction inputs generalizing s with
  | nil => exact ⟨.nil, hs⟩
  | cons inputDoc inputs ih =>
    refine wp_bind (wp_query hs fun reply t hreply ht => ?_)
    have hrow : ∀ x, batchResult reply = x → x = .error .dryRun ∨
        x = batchResult (H.reply (packagePath H .batch token)
          (OpaStore.single (policyId H .batch token) regoSource) inputDoc) := by
      rintro _ rfl
      cases hreply with
      | timeout | transportError => exact .inl rfl
      | reply => exact .inr rfl
    have hrest : ∀ x, batchResult reply = x → wp (opaLogic hhex ι c tidy) i
        (rows (packagePath H .batch token) inputs >>= fun xs => pure (x :: xs))
        (fun xs t => List.Forall₂ (fun inputDoc x => x = .error .dryRun ∨
            x = batchResult (H.reply (packagePath H .batch token)
              (OpaStore.single (policyId H .batch token) regoSource) inputDoc)) (inputDoc :: inputs) xs ∧
          Holds H tidy i .batch token (some regoSource) t)
        (fun _ t => Holds H tidy i .batch token (some regoSource) t) t := fun x hx =>
      wp_bind (wp_mono (ih ht) (fun xs u hxs => ⟨.cons (hrow x hx) hxs.1, hxs.2⟩) fun _ _ h => h)
    cases hresult : batchResult reply with
    | ok result => exact hrest _ hresult
    | error e =>
      show wp _ _ (if e = .valueError ∨ e = .dryRun then _ else _) _ _ _
      split
      · exact hrest _ hresult
      · exact ht

theorem wp_runBatch (b : BuiltBundle) (inputs : List Json) (hs : tidy → s.Cleared H i) :
    wp (opaLogic hhex ι c tidy) i (runBatch H b.bundle inputs)
      (fun xs t => (tidy → t.Cleared H i) ∧ BatchAlone H b inputs xs)
      (fun _ t => tidy → t.Cleared H i) s := by
  refine wp_uuid4 hs fun token t ht => ?_
  cases hrewritten : BundleBuilder.retargetPackage b.bundle.regoSource (packagePath H .batch token) with
  | none => exact (ht .batch).cleared
  | some rewritten =>
    have hpackage := packageOf_retargetPackage (by simp [packagePath])
      (identifiers_packagePath hhex .batch token) hrewritten
    refine wp_bind (wp_raisingDryRun (wp_put (ht .batch) hpackage (fun t ht => ?_)
      fun _ _ t _ hcarried htidy => ?_))
    · refine wp_finallyDelete hc (wp_mono (wp_rows inputs ht) (fun xs t h => ?_) fun _ _ h => ⟨_, h⟩)
      exact ⟨⟨token, rewritten, hrewritten, h.1⟩, _, h.2⟩
    · -- nobody deletes a batch whose loading has failed
      exact absurd (hc htidy _ _ _ _ hcarried ⟨token, rfl⟩) (by simp)

omit hc in
theorem wp_live {p : OpaService Unit} (hp : OpaLive H p) (hs : tidy → s.Cleared H i) :
    wp (opaLogic hhex ι c tidy) i p (fun _ t => tidy → t.Cleared H i)
      (fun _ t => tidy → t.Cleared H i) s := by
  have hkeeps : ∀ {α : Type} (p : OpaService α) (s : OpaStore ι),
      SendsOnly (OpaStatement.AboutLive H) p → (tidy → s.Cleared H i) →
      wp (opaLogic hhex ι c tidy) i p (fun _ t => tidy → t.Cleared H i)
        (fun _ t => tidy → t.Cleared H i) s := by
    intro α p
    induction p with
    | ret a => exact fun s _ hs => hs
    | raise e => exact fun s _ hs => hs
    | call q k ih =>
      intro s hsends hs t hst ht
      refine ⟨.live hsends.1, fun r u hstep => ih r u (hsends.2 r trivial) fun htidy => ?_⟩
      have hcleared := hst.cleared (hs htidy)
      obtain ⟨hstep, -⟩ := hstep
      cases hsends.1 with
      | put h =>
        exact (OpaStore.leaves_of_changed (H := H) hstep fun k token _ =>
          policyId_ne k token _).cleared hcleared
      | query =>
        obtain rfl := hstep.1
        exact hcleared
      | delete o =>
        exact (OpaStore.leaves_of_changed (H := H) hstep fun k token _ =>
          policyId_ne k token o).cleared hcleared
  exact hkeeps p s (sendsOnly_live hhex hp) hs

end

end Opa

/-! ## Every run -/

/-- How a request has ended. -/
inductive OpaReport where
  | dryRun (b : BuiltBundle) (sampleInput : Json) (result : Except PyError DryRunResult)
  | runBatch (b : BuiltBundle) (inputs : List Json)
      (result : Except PyError (List (Except PyError Json)))
  | live

/-- A test that has returned speaks of its own bundle. -/
def OpaReport.Alone (H : OpaHost) : OpaReport → Prop
  | .dryRun b sampleInput (.ok a) => Opa.DryRunAlone H b sampleInput a
  | .runBatch b inputs (.ok xs) => Opa.BatchAlone H b inputs xs
  | _ => True

/-- The programs of all requests, which report how they end. -/
inductive OpaReporting (H : OpaHost) :
    Prog (OpaStatement ⊕ OpaReport) (ReportAnswer OpaStatement.Answer OpaReport) PyError Unit → Prop where
  | live {p : OpaService Unit} (hp : OpaLive H p) : OpaReporting H (p.reported fun _ => .live)
  | dryRun (b : BuiltBundle) (sampleInput : Json) :
      OpaReporting H ((Opa.dryRun H b.bundle sampleInput).reported (.dryRun b sampleInput))
  | runBatch (b : BuiltBundle) (inputs : List Json) :
      OpaReporting H ((Opa.runBatch H b.bundle inputs).reported (.runBatch b inputs))

abbrev OpaReportingWorld (ι : Type) : Type :=
  World (OpaStatement ⊕ OpaReport) (ReportAnswer OpaStatement.Answer OpaReport) PyError
    (Reported OpaStatement OpaStatement.Answer PyError (OpaStore ι) ι OpaReport) ι

abbrev OpaReportingRun {ι : Type} [DecidableEq ι] (H : OpaHost) (w : OpaReportingWorld ι) : Prop :=
  Reach ((opaMachine H ι).reporting OpaReport) {p | OpaReporting H p}
    (· = Reported.init OpaStore.empty) w

namespace OpaStore

theorem kept_empty {H : OpaHost} {ι : Type} : (empty : OpaStore ι).Kept H where
  sorted := fun _ _ h => by cases h
  undrawn := fun _ => rfl

end OpaStore

section

variable {ι : Type} [DecidableEq ι] {H : OpaHost} {w : OpaReportingWorld ι}

theorem reports_alone (hhex : H.Hex) (h : OpaReportingRun H w) : ∀ e ∈ w.store.reports, e.1.Alone H := by
  have hrun : Reach (((opaMachine H ι).restrict fun _ _ _ _ => True).reporting OpaReport)
      {p | OpaReporting H p} (· = Reported.init OpaStore.empty) w := by
    refine h.imp fun i q s r t hstep => ?_
    cases q with
    | inl q =>
      obtain ⟨u, hstep, rfl⟩ := hstep
      exact ⟨u, ⟨hstep, trivial⟩, rfl⟩
    | inr x => exact hstep
  let L := opaLogic hhex ι (fun _ _ _ _ => True) False
  have hstable : Stable L fun (x : OpaReport) _ _ => x.Alone H := ⟨fun _ _ _ h => h, fun _ h => h⟩
  have huntidy : False → ∀ (i : ι) (q : OpaStatement) (s : OpaStore ι) (r : Except PyError q.Answer),
      True → q.Carried H r := False.elim
  have hkeeps : ∀ p ∈ {p | OpaReporting H p}, (Logic.reporting hstable).Keeps p := by
    rintro p (⟨hp⟩ | ⟨b, sampleInput⟩ | ⟨b, inputs⟩)
    · refine keeps_reported hstable fun i s _ hidle => wp_mono (wp_tracing (Opa.wp_live hp hidle.1)) ?_ ?_
      · exact fun _ _ h => ⟨h, trivial⟩
      · exact fun _ _ h => ⟨h, trivial⟩
    · refine keeps_reported hstable fun i s _ hidle =>
        wp_mono (wp_tracing (Opa.wp_dryRun huntidy b sampleInput hidle.1)) ?_ ?_
      · exact fun _ _ h => h
      · exact fun _ _ h => ⟨h, trivial⟩
    · refine keeps_reported hstable fun i s _ hidle =>
        wp_mono (wp_tracing (Opa.wp_runBatch huntidy b inputs hidle.1)) ?_ ?_
      · exact fun _ _ h => h
      · exact fun _ _ h => ⟨h, trivial⟩
  refine (hrun.sound hkeeps ?_).1.2
  rintro s rfl
  refine ⟨⟨OpaStore.kept_empty, fun e he => ?_⟩, fun i => ⟨fun hfalse => hfalse.elim, rfl⟩⟩
  cases he

/-- **A dry run has the verdict of its bundle alone**, whatever is deployed, decided, tested or lost
meanwhile. `m` is how OPA takes the text of the bundle. -/
theorem dryRun_isolated (hhex : H.Hex) (h : OpaReportingRun H w) {b : BuiltBundle} {sampleInput : Json}
    {a : DryRunResult} {m : Module}
    (hserves : ∀ token regoSource,
      BundleBuilder.retargetPackage b.bundle.regoSource (Opa.packagePath H .dryRun token) =
        some regoSource →
      H.reply (Opa.packagePath H .dryRun token)
        (OpaStore.single (Opa.policyId H .dryRun token) regoSource) sampleInput = m.reply sampleInput)
    {tr} (he : (OpaReport.dryRun b sampleInput (.ok a), tr) ∈ w.store.reports) (token : String) :
    dryRun m token sampleInput = .ok a := by
  obtain ⟨id, regoSource, hretarget, hresult⟩ := reports_alone hhex h _ he
  rw [hserves id regoSource hretarget] at hresult
  exact hresult

/-- **Every row of a batch has the answer of its bundle alone**, or OPA could not be asked. -/
theorem runBatch_isolated (hhex : H.Hex) (h : OpaReportingRun H w) {b : BuiltBundle}
    {inputs : List Json} {xs : List (Except PyError Json)} {m : Module}
    (hserves : ∀ token regoSource inputDoc,
      BundleBuilder.retargetPackage b.bundle.regoSource (Opa.packagePath H .batch token) =
        some regoSource →
      H.reply (Opa.packagePath H .batch token)
        (OpaStore.single (Opa.policyId H .batch token) regoSource) inputDoc = m.reply inputDoc)
    {tr} (he : (OpaReport.runBatch b inputs (.ok xs), tr) ∈ w.store.reports) (token : String) :
    List.Forall₂ (fun inputDoc x => x = .error .dryRun ∨
      x = PolicySimulationService.queryLoadedBundle m token inputDoc) inputs xs := by
  obtain ⟨id, regoSource, hretarget, hrows⟩ := reports_alone hhex h _ he
  refine hrows.imp fun inputDoc x hx => hx.imp_right fun hx => ?_
  rw [hserves id regoSource inputDoc hretarget] at hx
  exact hx

/-- **Nothing is left behind**, where deletions are carried out and so is the loading of batches: once
nothing is running, every module is an organization's. -/
theorem throwaway_cleared (hhex : H.Hex)
    {w : World OpaStatement OpaStatement.Answer PyError (OpaStore ι) ι}
    (h : Reach ((opaMachine H ι).restrict fun _ q _ r => q.Carried H r)
      ({p | OpaLive H p} ∪ {p | OpaThrowaway H p}) (· = OpaStore.empty) w)
    (hquiescent : w.Quiescent) {id : String} {regoSource : Source}
    (hloaded : w.store.policies id = some regoSource) : ∃ o, id = Opa.policyIdOf H o := by
  let L := opaLogic hhex ι (fun _ q _ r => q.Carried H r) True
  have hc : True → ∀ (i : ι) (q : OpaStatement) (s : OpaStore ι) (r : Except PyError q.Answer),
      q.Carried H r → q.Carried H r := fun _ _ _ _ _ h => h
  have hkeeps : ∀ p ∈ {p | OpaLive H p} ∪ {p | OpaThrowaway H p}, L.Keeps p := by
    rintro p (hp | hp) i s hinv hidle
    · exact Opa.wp_live hp hidle
    · cases hp with
      | dryRun b sampleInput =>
        exact wp_bind (wp_mono (Opa.wp_dryRun hc b sampleInput hidle) (fun _ _ h => h.1) fun _ _ h => h)
      | runBatch b inputs =>
        exact wp_bind (wp_mono (Opa.wp_runBatch hc b inputs hidle) (fun _ _ h => h.1) fun _ _ h => h)
  obtain ⟨hkept, hlocal⟩ := h.sound hkeeps (by
    rintro s rfl
    exact ⟨OpaStore.kept_empty, fun i _ k token hdrawn => by cases hdrawn⟩)
  have hidle : ∀ i, w.store.Cleared H i := by
    intro i
    have hi := hlocal i
    unfold Logic.local at hi
    rw [hquiescent i] at hi
    exact hi trivial
  rcases hkept.sorted id regoSource hloaded with ⟨o, rfl, -⟩ | ⟨k, token, rfl, -⟩
  · exact ⟨o, rfl⟩
  · exfalso
    have hnone : w.store.policies (Opa.policyId H k token) = none := by
      cases hdrawn : w.store.drawnBy token with
      | none => exact hkept.undrawn hdrawn
      | some i => exact hidle i k token hdrawn
    rw [hnone] at hloaded
    cases hloaded

end

/-! ### A dry run that ends, and a batch whose loading fails -/

/-- A dry run; another process deploys the bundle before OPA is asked. -/
def endedDryRun : OpaReportingWorld Bool :=
  ((opaSchedule letterOpa fun _ => false).reporting OpaReport).play
    [⟨true, some ((Opa.dryRun letterOpa capBuilt.bundle .null).reported (.dryRun capBuilt .null)), 2⟩,
      ⟨false, some ((Opa.uploadPolicy letterOpa none capBuilt.bundle.regoSource).run.reported
        fun _ => .live), 3⟩, ⟨true, none, 4⟩]
    ⟨Reported.init OpaStore.empty, fun _ => none⟩

theorem endedDryRun_run : OpaReportingRun letterOpa endedDryRun := by
  refine Schedule.play_reach (.init rfl) fun t ht p hp => ?_
  simp only [List.mem_cons, List.not_mem_nil, or_false] at ht
  rcases ht with rfl | rfl | rfl
  · obtain rfl := Option.some.inj hp
    exact .dryRun capBuilt .null
  · obtain rfl := Option.some.inj hp
    exact .live (.uploadPolicy (b := capBuilt) rfl)
  · cases hp

theorem letterOpa_serves (k : Throwaway) (token : Uuid) (regoSource : Source) (input : Json) :
    letterOpa.reply (Opa.packagePath letterOpa k token)
      (OpaStore.single (Opa.policyId letterOpa k token) regoSource) input =
        (intendedModule [paymentPolicy []]).reply input := by
  have hid : k.name ++ "-" ++ ("t" ++ letterOpa.uuidHex token) = Opa.policyId letterOpa k token := by
    unfold Opa.policyId
    rw [← String.toList_inj]
    simp
  show (if (OpaStore.single _ regoSource (k.name ++ "-" ++ ("t" ++ letterOpa.uuidHex token))).isSome
    then _ else _) = _
  rw [hid, OpaStore.single, if_pos rfl]
  rfl

/-- What a dry run has returned. -/
def OpaReport.returned : OpaReport → Option (Json × DryRunResult)
  | .dryRun _ sampleInput (.ok a) => some (sampleInput, a)
  | _ => none

/-- The dry run has returned what the module says. -/
theorem dryRun_isolated_ended : ∃ sampleInput a,
    (∃ e ∈ endedDryRun.store.reports, e.1.returned = some (sampleInput, a)) ∧
    dryRun (intendedModule [paymentPolicy []]) "" sampleInput = .ok a := by
  have hreports : (endedDryRun.store.reports.any fun e => e.1.returned.isSome) = true := by
    decide +kernel
  obtain ⟨⟨x, tr⟩, he, hsome⟩ := List.any_eq_true.1 hreports
  obtain ⟨⟨sampleInput, a⟩, hreturned⟩ := Option.isSome_iff_exists.1 hsome
  refine ⟨sampleInput, a, ⟨(x, tr), he, hreturned⟩, ?_⟩
  cases x with
  | dryRun b input result =>
    cases result with
    | ok a' =>
      obtain ⟨rfl, rfl⟩ := Prod.mk.inj (Option.some.inj hreturned)
      exact dryRun_isolated letterOpa_hex endedDryRun_run
        (fun token regoSource _ => letterOpa_serves .dryRun token regoSource input) he ""
    | error e => cases hreturned
  | _ => cases hreturned

/-- A batch of two rows; another process deploys the bundle after the first. -/
def endedBatch : OpaReportingWorld Bool :=
  ((opaSchedule letterOpa fun _ => false).reporting OpaReport).play
    [⟨true, some ((Opa.runBatch letterOpa capBuilt.bundle [.null, .int 1]).reported
        (.runBatch capBuilt [.null, .int 1])), 3⟩,
      ⟨false, some ((Opa.uploadPolicy letterOpa none capBuilt.bundle.regoSource).run.reported
        fun _ => .live), 3⟩, ⟨true, none, 4⟩]
    ⟨Reported.init OpaStore.empty, fun _ => none⟩

theorem endedBatch_run : OpaReportingRun letterOpa endedBatch := by
  refine Schedule.play_reach (.init rfl) fun t ht p hp => ?_
  simp only [List.mem_cons, List.not_mem_nil, or_false] at ht
  rcases ht with rfl | rfl | rfl
  · obtain rfl := Option.some.inj hp
    exact .runBatch capBuilt _
  · obtain rfl := Option.some.inj hp
    exact .live (.uploadPolicy (b := capBuilt) rfl)
  · cases hp

/-- The rows that a batch has returned. -/
def OpaReport.rows : OpaReport → Option (List Json × List (Except PyError Json))
  | .runBatch _ inputs (.ok xs) => some (inputs, xs)
  | _ => none

/-- The batch has returned two rows. -/
theorem runBatch_isolated_ended : ∃ inputs xs,
    (∃ e ∈ endedBatch.store.reports, e.1.rows = some (inputs, xs)) ∧ xs.length = inputs.length ∧
    List.Forall₂ (fun inputDoc x => x = .error .dryRun ∨
      x = PolicySimulationService.queryLoadedBundle (intendedModule [paymentPolicy []]) "" inputDoc)
      inputs xs := by
  have hreports : (endedBatch.store.reports.any fun e => e.1.rows.isSome) = true := by
    decide +kernel
  obtain ⟨⟨x, tr⟩, he, hsome⟩ := List.any_eq_true.1 hreports
  obtain ⟨⟨inputs, xs⟩, hreturned⟩ := Option.isSome_iff_exists.1 hsome
  refine ⟨inputs, xs, ⟨(x, tr), he, hreturned⟩, ?_⟩
  cases x with
  | runBatch b inputs' result =>
    cases result with
    | ok xs' =>
      obtain ⟨rfl, rfl⟩ := Prod.mk.inj (Option.some.inj hreturned)
      have hrows := runBatch_isolated letterOpa_hex endedBatch_run
        (fun token regoSource input _ => letterOpa_serves .batch token regoSource input) he ""
      exact ⟨hrows.length_eq.symm, hrows⟩
    | error e => cases hreturned
  | _ => cases hreturned

/-- A scheduler whose statements succeed. -/
def carriedSchedule (H : OpaHost) :
    Schedule ((opaMachine H Bool).restrict fun _ q _ r => q.Carried H r) where
  answer := (opaSchedule H fun _ => false).answer
  sound i q s r t h := by
    refine ⟨(opaSchedule H fun _ => false).sound i q s r t h, ?_⟩
    cases q with
    | uuid4 | query => trivial
    | put id regoSource =>
      cases h
      exact fun _ => rfl
    | delete id =>
      cases h
      rfl

def clearedTurns : List (Turn OpaStatement OpaStatement.Answer PyError Bool) :=
  [⟨true, some (Opa.dryRun letterOpa capBuilt.bundle .null).run, 2⟩,
    ⟨false, some (Opa.uploadPolicy letterOpa none capBuilt.bundle.regoSource).run, 2⟩,
    ⟨true, none, 4⟩, ⟨false, some (Opa.runBatch letterOpa capBuilt.bundle [.null]).run, 6⟩]

def clearedWorld : World OpaStatement OpaStatement.Answer PyError (OpaStore Bool) Bool :=
  (carriedSchedule letterOpa).play clearedTurns ⟨OpaStore.empty, fun _ => none⟩

/-- A dry run, a deployment and a batch: what is left is the organization's. -/
theorem throwaway_cleared_ended : (clearedWorld.store.policies "authorization").isSome = true ∧
    ∃ o, "authorization" = Opa.policyIdOf letterOpa o := by
  have hloaded : (clearedWorld.store.policies "authorization").isSome = true := by decide +kernel
  refine ⟨hloaded, ?_⟩
  obtain ⟨regoSource, hsource⟩ := Option.isSome_iff_exists.1 hloaded
  refine throwaway_cleared letterOpa_hex (w := clearedWorld) ?_ (fun i => ?_) hsource
  · refine Schedule.play_reach (.init rfl) fun t ht p hp => ?_
    simp only [clearedTurns, List.mem_cons, List.not_mem_nil, or_false] at ht
    rcases ht with rfl | rfl | rfl | rfl
    · obtain rfl := Option.some.inj hp
      exact .inr (.dryRun capBuilt .null)
    · obtain rfl := Option.some.inj hp
      exact .inl (.uploadPolicy (b := capBuilt) rfl)
    · cases hp
    · obtain rfl := Option.some.inj hp
      exact .inr (.runBatch capBuilt [.null])
  · have hnone : ∀ i, (clearedWorld.running i).isNone = true := by decide +kernel
    exact Option.isNone_iff_eq_none.1 (hnone i)

/-- The loading of this batch is carried out, and fails. -/
def orphanedWorld : World OpaStatement OpaStatement.Answer PyError (OpaStore Bool) Bool :=
  (opaSchedule letterOpa fun id => id = "batch-t").play
    [⟨true, some (Opa.runBatch letterOpa capBuilt.bundle [.null]).run, 6⟩] ⟨OpaStore.empty, fun _ => none⟩

/-- **A batch whose loading fails may leave its bundle**, where a dry run would have deleted it. -/
theorem batch_orphaned : OpaRun letterOpa orphanedWorld ∧ orphanedWorld.Quiescent ∧
    (orphanedWorld.store.policies (Opa.policyId letterOpa .batch 0)).isSome = true := by
  refine ⟨?_, fun i => ?_, by decide +kernel⟩
  · refine Schedule.play_reach (.init rfl) fun t ht p hp => ?_
    obtain rfl := List.mem_singleton.1 ht
    obtain rfl := Option.some.inj hp
    exact .inr (.runBatch capBuilt [.null])
  · have hnone : ∀ i, (orphanedWorld.running i).isNone = true := by decide +kernel
    exact Option.isNone_iff_eq_none.1 (hnone i)

end PayReality
