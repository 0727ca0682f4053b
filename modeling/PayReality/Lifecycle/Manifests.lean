import PayReality.Lifecycle.Insertions

/-!
# What a manifest lists

A deploy compiles a version together with versions that its session has read. What was authored as
them never changes, so every entry of the manifest of a row of `policies` is that of a version which
is still there.
-/

namespace PayReality

open Program RuntimePolicyService

variable {ι : Type} [DecidableEq ι] {T : Terms ι} {H : Host} {s t : Store ι} {i : ι} {q : Statement}
  {r : Except PyError q.Answer}

/-- What sessions have read was authored as it still is, and so was what the manifests list. -/
structure Compilations (s : Store ι) : Prop where
  seen : ∀ i q db₀, s.seen i q = some db₀ → db₀.cores ⊆ s.db.cores
  listed : ∀ p ∈ s.db.policies, ∀ m, p.bundleManifest = some m → ∀ e ∈ m.policies,
    ∃ c ∈ s.db.cores, e = BundleBuilder.manifestEntry c.2.2

/-- Only queries are remembered. -/
theorem Store.step_seen (h : Store.step H i q s r t) (hq : ∀ q', q ≠ .select q') :
    t.seen = s.seen := by
  cases q with
  | select q' => exact absurd rfl (hq q')
  | uuid4 =>
    obtain ⟨-, -, rfl⟩ := h
    rfl
  | flushPolicy prior row =>
    rcases h with ⟨-, h⟩ | ⟨-, rfl⟩
    · split at h <;> obtain ⟨-, rfl⟩ := h <;> rfl
    · rfl
  | flushMandate m => rcases h with ⟨-, rfl⟩ | ⟨-, rfl⟩ | ⟨-, rfl⟩ <;> rfl
  | commit ws =>
    rcases Store.step_commit h with rfl | ⟨-, -, rfl⟩
    · rfl
    · exact Store.commit_seen ..
  | rollback =>
    obtain ⟨-, rfl⟩ := h
    rfl
  | uploadPolicy o source | deletePolicy o =>
    rcases h with ⟨-, rfl⟩ | ⟨-, rfl | rfl⟩
    · unfold Store.load
      split <;> rfl
    · rfl
    · rfl
  | submitIntent agent req now => rcases h with ⟨-, rfl⟩ | ⟨-, rfl⟩ <;> rfl

/-- No version is taken away, nor is what was authored as it. -/
theorem Inv.cores_step (hinv : Inv T s) (hpre : Pre T H i q s) (hstep : Store.step H i q s r t) :
    s.db.cores ⊆ t.db.cores := by
  cases q with
  | commit ws =>
    rcases Store.step_commit hstep with rfl | ⟨-, -, rfl⟩
    · exact List.Subset.refl _
    cases hpending : s.pending i with
    | none =>
      rw [Pre, hpending] at hpre
      obtain ⟨w, rfl, -, hw⟩ := hpre
      rw [Store.commit_db, hpending]
      exact (hw.grows hinv.db).cores.subset
    | some p =>
      rw [Pre, hpending] at hpre
      obtain ⟨row, bundle, replaced, content, rfl, hd⟩ := hpre
      rw [Store.commit_db, hpending]
      exact (hd.grows hinv.db (hinv.next i p hpending).2).cores.subset
  | _ =>
    have hsame := Store.step_same hstep (by simp)
    rw [Db.cores, Db.cores, hsame.records]
    exact List.Subset.refl _

/-- What sessions have read is still there. -/
theorem Store.seen_cores (hstep : Store.step H i q s r t) (hcores : s.db.cores ⊆ t.db.cores)
    (h : ∀ j q db₀, s.seen j q = some db₀ → db₀.cores ⊆ s.db.cores) :
    ∀ j q db₀, t.seen j q = some db₀ → db₀.cores ⊆ t.db.cores := by
  intro j q₀ db₀ hq
  cases q with
  | select q' =>
    rcases hstep with ⟨-, rfl⟩ | ⟨-, rfl⟩
    · by_cases hj : j = i
      · subst hj
        rw [Store.saw_seen] at hq
        split at hq
        · cases hq
          exact hcores
        · exact List.Subset.trans (h j q₀ db₀ hq) hcores
      · rw [show (s.saw i q').seen j = s.seen j from Function.update_of_ne hj _ _] at hq
        exact List.Subset.trans (h j q₀ db₀ hq) hcores
    · exact h j q₀ db₀ hq
  | _ =>
    rw [Store.step_seen hstep (by simp)] at hq
    exact List.Subset.trans (h j q₀ db₀ hq) hcores

omit [DecidableEq ι] in
/-- The manifest of a deploy lists what its session has compiled. -/
theorem Deploys.lists {p : Pending} {row : RuntimePolicyRecord} {bundle : PolicyBundle}
    {replaced : Option RuntimePolicyRecord} {content : RuntimePolicy}
    (hd : Deploys T H i p row bundle replaced content s) (h : Compilations s) :
    ∀ m, p.row.bundleManifest = some m → ∀ e ∈ m.policies,
      ∃ c ∈ s.db.cores, e = BundleBuilder.manifestEntry c.2.2 := by
  intro m hm e he
  rw [hd.manifest] at hm
  cases hm
  obtain ⟨db₀, now, hseen, ⟨errors, hcompile⟩, -⟩ := hd.compiled.others
  obtain ⟨-, -, -, hbuild⟩ := CompilerV2.compileBundle_ok hcompile
  obtain ⟨-, -, -, hmanifest, -⟩ := CompilerV2.buildBundle_ok hbuild
  rw [hmanifest, BundleBuilder.manifestOf, List.map_cons, List.mem_cons] at he
  rcases he with rfl | he
  · exact ⟨row.core, hd.compiled.core, rfl⟩
  · simp only [List.mem_map] at he
    obtain ⟨_, ⟨q, hq, rfl⟩, rfl⟩ := he
    have hmem : q ∈ db₀.records :=
      List.mem_of_mem_filter (List.mem_of_mem_filter ((List.mem_insertionSort _).1 hq))
    exact ⟨q.core, h.seen i _ db₀ hseen (Db.mem_cores hmem), rfl⟩

/-- **Every statement keeps it.** -/
theorem Compilations.step (h : Compilations s) (hinv : Inv T s) (hpre : Pre T H i q s)
    (hstep : Store.step H i q s r t) : Compilations t := by
  have hcores := hinv.cores_step hpre hstep
  refine ⟨Store.seen_cores hstep hcores h.seen, fun p hp m hm e he => ?_⟩
  have hold : (∃ c ∈ s.db.cores, e = BundleBuilder.manifestEntry c.2.2) →
      ∃ c ∈ t.db.cores, e = BundleBuilder.manifestEntry c.2.2 :=
    fun ⟨c, hc, heq⟩ => ⟨c, hcores hc, heq⟩
  refine hold ?_
  cases q with
  | commit ws =>
    rcases Store.step_commit hstep with rfl | ⟨-, -, rfl⟩
    · exact h.listed p hp m hm e he
    cases hpending : s.pending i with
    | none =>
      rw [Pre, hpending] at hpre
      obtain ⟨w, rfl, -, -⟩ := hpre
      rw [Store.commit_db, hpending, Db.commit_policies] at hp
      exact h.listed p hp m hm e he
    | some p' =>
      rw [Pre, hpending] at hpre
      obtain ⟨row, bundle, replaced, content, rfl, hd⟩ := hpre
      rw [Store.commit_db, hpending, Db.commit_policies] at hp
      rcases List.mem_append.1 hp with hp | hp
      · obtain ⟨p₀, hp₀, rfl⟩ := List.mem_map.1 hp
        refine h.listed p₀ hp₀ m ?_ e he
        rw [← hm, Db.retirePolicy]
        split <;> rfl
      · rw [List.mem_singleton.1 hp] at hm
        exact hd.lists h m hm e he
  | _ =>
    rw [(Store.step_same hstep (by simp)).policies] at hp
    exact h.listed p hp m hm e he

/-- What holds in every run of programs that keep the contract. -/
theorem compilations_of_run {starts : Set (Service Unit)} {init : Store ι → Prop}
    {c : ι → (q : Statement) → Store ι → Except PyError q.Answer → Prop}
    {w : World Statement Statement.Answer PyError (Store ι) ι}
    (hs : ∀ p ∈ starts, (contract T H).Keeps p) (hfresh : ∀ s, init s → s.Fresh)
    (hseen : ∀ s, init s → ∀ i q, s.seen i q = none)
    (h : Reach ((machine H ι).restrict c) starts init w) : Compilations w.store := by
  refine h.invariant hs (fun s hs => (hfresh s hs).start) (fun s hs => ?_) ?_
  · refine ⟨fun i q db₀ hq => ?_, fun p hp => ?_⟩
    · rw [hseen s hs i q] at hq
      cases hq
    · rw [(hfresh s hs).policies] at hp
      cases hp
  · exact fun i q s r t hinv _ hpre hstep _ h => h.step hinv hpre hstep

end PayReality
