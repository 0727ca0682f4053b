import PayReality.Evidence.Chain

/-!
# Windows of a chain

`verify_chain` with a `since` cuts a chain by `created_at`, the time at which a transaction began,
and checks it in the order of the sequences, which is the order in which the transactions got the
lock. So a window may leave out a record in the middle: `verifyChain_window` says exactly when a
window of a chain that is in order is reported as intact (`Gapless`).

Before its first append an organization may have records without a sequence (`Legacy`). They come
first in the order of verification, but the first record that is numbered has no numbered record
before it, so a window that starts there expects no link.
-/

namespace PayReality

open Program

/-! ## Sorted chains -/

/-- `LIMIT 1` of the reverse order is the last row. -/
theorem firstRow_reverse {order : EvidenceRow → EvidenceRow → Bool}
    [Std.Total fun d e => order e d = true] [IsTrans EvidenceRow fun d e => order e d = true]
    {rows sorted : List EvidenceRow} (hperm : sorted.Perm rows)
    (hsorted : sorted.Pairwise fun d e => order d e = true)
    (hanti : ∀ d ∈ rows, ∀ e ∈ rows, order d e = true → order e d = true → d = e) :
    firstRow (fun d e => order e d) rows = sorted.getLast? := by
  rcases List.eq_nil_or_concat' sorted with rfl | ⟨pre, e, rfl⟩
  · rw [List.nil_perm.1 hperm]
    rfl
  · have he : e ∈ rows := hperm.subset (by simp)
    rw [List.getLast?_concat]
    cases hfirst : firstRow (fun d e => order e d) rows with
    | none =>
      rw [firstRow_eq_none.1 hfirst] at he
      cases he
    | some m =>
      obtain ⟨hm, hmax⟩ := firstRow_some hfirst
      have hem : order e m = true := hmax e he
      rcases List.mem_append.1 (hperm.mem_iff.2 hm) with hpre | hlast
      · have hme := (List.pairwise_append.1 hsorted).2.2 m hpre e (List.mem_singleton_self e)
        rw [hanti m hm e he hme hem]
      · rw [List.mem_singleton.1 hlast]

/-- The records that an organization has from before sequences. -/
structure Legacy (clock : Timestamp) (base : List EvidenceRow) : Prop where
  unsequenced : ∀ e ∈ base, e.sequence = none
  created : ∀ e ∈ base, e.createdAt ≤ clock
  ids : (base.map EvidenceRow.id).Nodup

/-- Records in the order of verification. -/
def sorted (chain : List EvidenceRow) : List EvidenceRow :=
  chain.insertionSort fun d e => d.inOrder e

theorem sorted_perm (chain : List EvidenceRow) : (sorted chain).Perm chain :=
  List.perm_insertionSort _ _

theorem sorted_pairwise (chain : List EvidenceRow) :
    (sorted chain).Pairwise fun d e => d.inOrder e = true :=
  List.pairwise_insertionSort _ _

namespace Legacy

variable {clock : Timestamp} {base S : List EvidenceRow} {H : EvidenceHost} {d e : EvidenceRow}

theorem eq_of_byTime (h : Legacy clock base) (hd : d ∈ base) (he : e ∈ base)
    (hde : d.byTime e = true) (hed : e.byTime d = true) : d = e := by
  refine List.inj_on_of_nodup_map h.ids hd he ?_
  simp only [EvidenceRow.byTime, Bool.or_eq_true, Bool.and_eq_true, decide_eq_true_eq] at hde hed
  grind

theorem inOrder_iff (h : Legacy clock base) (hd : d ∈ base) (he : e ∈ base) :
    d.inOrder e = d.byTime e := by
  rw [EvidenceRow.inOrder, h.unsequenced d hd, h.unsequenced e he]

/-- The order of verification tells all records apart. -/
theorem eq_of_inOrder (h : Legacy clock base) (happ : Appended H clock base S)
    (hd : d ∈ base ++ S) (he : e ∈ base ++ S) (hde : d.inOrder e = true)
    (hed : e.inOrder d = true) : d = e := by
  rcases List.mem_append.1 hd with hd | hd <;> rcases List.mem_append.1 he with he | he
  · rw [h.inOrder_iff hd he] at hde
    rw [h.inOrder_iff he hd] at hed
    exact h.eq_of_byTime hd he hde hed
  · obtain ⟨n, hn, -⟩ := happ.sequence_le he
    simp [EvidenceRow.inOrder, h.unsequenced d hd, hn] at hed
  · obtain ⟨n, hn, -⟩ := happ.sequence_le hd
    simp [EvidenceRow.inOrder, h.unsequenced e he, hn] at hde
  · obtain ⟨m, hm, -⟩ := happ.sequence_le hd
    obtain ⟨n, hn, -⟩ := happ.sequence_le he
    refine happ.eq_of_sequence hd he ?_
    simp only [EvidenceRow.inOrder, hm, hn, Bool.or_eq_true, Bool.and_eq_true,
      decide_eq_true_eq] at hde hed
    rw [hm, hn, Option.some.injEq]
    omega

/-- The whole chain in order: the legacy records, then the appended ones. -/
theorem pairwise (h : Legacy clock base) (happ : Appended H clock base S) :
    (sorted base ++ S).Pairwise fun d e => d.inOrder e = true := by
  refine List.pairwise_append.2 ⟨sorted_pairwise base, happ.inOrder, fun d hd e he => ?_⟩
  obtain ⟨n, hn, -⟩ := happ.sequence_le he
  rw [EvidenceRow.inOrder, h.unsequenced d ((sorted_perm base).subset hd), hn]

/-- The records of a window are those of the whole chain, in order. -/
theorem window_eq (h : Legacy clock base) (happ : Appended H clock base S)
    (since : Option Timestamp) : window (base ++ S) since =
      (sorted base ++ S).filter fun e => since.all (· ≤ e.createdAt) := by
  have hperm : (sorted base ++ S).Perm (base ++ S) := (sorted_perm base).append_right S
  refine List.Perm.eq_of_pairwise (fun d e hd he => h.eq_of_inOrder happ ?_ ?_)
    (sorted_pairwise _) ((h.pairwise happ).filter _) ((sorted_perm _).trans (hperm.filter _).symm)
  · exact (List.mem_filter.1 ((sorted_perm _).subset hd)).1
  · exact hperm.subset (List.mem_filter.1 he).1

/-- The last record of the whole chain is the one that the next record is linked to. -/
theorem latest_eq (h : Legacy clock base) : latest base = (sorted base).getLast? :=
  firstRow_reverse (sorted_perm base) (sorted_pairwise base) fun d hd e he hde hed => by
    rw [h.inOrder_iff hd he] at hde
    rw [h.inOrder_iff he hd] at hed
    exact h.eq_of_byTime hd he hde hed

/-- The record before a legacy record that is older than it in time. -/
theorem preceding_eq (h : Legacy clock base) (happ : Appended H clock base S)
    {pre post : List EvidenceRow} (hsplit : sorted base = pre ++ e :: post)
    (hpre : ∀ d ∈ pre, d.createdAt < e.createdAt) : preceding (base ++ S) e = pre.getLast? := by
  have hmem : ∀ d ∈ pre ++ e :: post, d ∈ base := fun d hd =>
    (sorted_perm base).subset (hsplit ▸ hd)
  have he : e ∈ base := hmem e (by simp)
  have hpost : ∀ d ∈ e :: post, ¬ d.createdAt < e.createdAt := by
    intro d hd
    have hpairwise := sorted_pairwise base
    rw [hsplit, List.pairwise_append] at hpairwise
    rcases List.mem_cons.1 hd with rfl | hd'
    · exact lt_irrefl _
    · have hed := (List.pairwise_cons.1 hpairwise.2.1).1 d hd'
      rw [h.inOrder_iff he (hmem d (by simp [hd']))] at hed
      simp only [EvidenceRow.byTime, Bool.or_eq_true, Bool.and_eq_true, decide_eq_true_eq] at hed
      grind
  have hperm : pre.Perm ((base ++ S).filter fun d => d.createdAt < e.createdAt) := by
    have hsel : (sorted base).filter (fun d => d.createdAt < e.createdAt) = pre := by
      rw [hsplit, List.filter_append, List.filter_eq_self.2 fun d hd => decide_eq_true (hpre d hd),
        List.filter_eq_nil_iff.2 fun d hd => by simpa using hpost d hd, List.append_nil]
    have hS : S.filter (fun d => d.createdAt < e.createdAt) = [] := by
      refine List.filter_eq_nil_iff.2 fun d hd => ?_
      have := (h.created e he).trans (happ.created d hd)
      simpa using this
    rw [List.filter_append, hS, List.append_nil, ← hsel]
    exact (sorted_perm base).filter _
  have hbase : ∀ d ∈ (base ++ S).filter (fun d => decide (d.createdAt < e.createdAt)), d ∈ base :=
    fun d hd => hmem d (List.mem_append_left _ (hperm.mem_iff.2 hd))
  rw [preceding, h.unsequenced e he]
  refine firstRow_reverse hperm ?_ fun d hd f hf => h.eq_of_byTime (hbase d hd) (hbase f hf)
  have hpairwise := sorted_pairwise base
  rw [hsplit, List.pairwise_append] at hpairwise
  refine hpairwise.1.imp_of_mem fun {d f} hd hf hdf => ?_
  rwa [h.inOrder_iff (hmem d (by simp [hd])) (hmem f (by simp [hf]))] at hdf

end Legacy

theorem tip_map {H : EvidenceHost} {chain : List EvidenceRow} :
    (payloadLinks H).tip .null (chain.map fun e => e.payload) =
      .ofText (chain.getLast?.map fun e => H.payloadHash e.payload) := by
  rcases List.eq_nil_or_concat' chain with rfl | ⟨chain, e, rfl⟩
  · rfl
  · rw [List.map_append, List.map_singleton, HashLinks.tip_concat, List.getLast?_concat]
    rfl

namespace Legacy

variable {clock : Timestamp} {base S : List EvidenceRow} {H : EvidenceHost}

/-- The legacy records are linked, if they are verified on their own. -/
theorem links (h : Legacy clock base)
    (hbase : (payloadLinks H).LinksFrom (.ofText (expectedPrevious H base (window base none)))
      ((window base none).map fun e => e.payload)) :
    (payloadLinks H).LinksFrom .null ((sorted base).map fun e => e.payload) := by
  have hwindow := h.window_eq (H := H) (S := []) .nil none
  simp only [List.append_nil, Option.all_none, List.filter_true] at hwindow
  have hnone : expectedPrevious H base (sorted base) = none := by
    cases hsort : sorted base with
    | nil => rfl
    | cons e post =>
      have : preceding (base ++ []) e = ([] : List EvidenceRow).getLast? :=
        h.preceding_eq (H := H) .nil hsort (by simp)
      rw [List.append_nil] at this
      simp [expectedPrevious, this]
  rwa [hwindow, hnone] at hbase

/-- The links of the whole chain. -/
theorem links_append (h : Legacy clock base) (happ : Appended H clock base S)
    (hbase : (payloadLinks H).LinksFrom .null ((sorted base).map fun e => e.payload)) :
    (payloadLinks H).LinksFrom .null ((sorted base ++ S).map fun e => e.payload) := by
  rw [List.map_append, HashLinks.linksFrom_append]
  refine ⟨hbase, ?_⟩
  rw [tip_map, ← h.latest_eq]
  exact happ.links

end Legacy

/-! ## What a window may leave out -/

/-- Both records are numbered, and the second one higher. -/
def EvidenceRow.numberedBefore (d e : EvidenceRow) : Bool :=
  d.sequence.any fun m => e.sequence.any fun n => m < n

/-- A window reaches back to a record without a sequence, or it leaves out no record between two of
its own and, if it starts with number 1, nothing at all. -/
def Gapless (chain : List EvidenceRow) (since : Timestamp) : Prop :=
  (∃ e ∈ chain, e.sequence = none ∧ since ≤ e.createdAt) ∨
    (∀ d ∈ chain, ∀ e ∈ chain, ∀ f ∈ chain, d.numberedBefore e = true → e.numberedBefore f = true →
      since ≤ d.createdAt → since ≤ f.createdAt → since ≤ e.createdAt) ∧
    ∀ e ∈ chain, e.sequence = some 1 → since ≤ e.createdAt → ∀ d ∈ chain, d.sequence ≠ none

namespace Appended

variable {H : EvidenceHost} {start : Timestamp} {base S pre post : List EvidenceRow}
  {e : EvidenceRow}

theorem numberedBefore (h : Appended H start base S) :
    S.Pairwise fun d e => d.numberedBefore e = true := by
  refine h.pairwise.imp ?_
  rintro d e ⟨m, n, hm, hn, hlt⟩
  simp [EvidenceRow.numberedBefore, hm, hn, hlt]

theorem numberedBefore_asymm {d e : EvidenceRow} (hde : d.numberedBefore e = true)
    (hed : e.numberedBefore d = true) : False := by
  unfold EvidenceRow.numberedBefore at hde hed
  cases hd : d.sequence <;> cases he : e.sequence <;> simp [hd, he] at hde hed
  omega

theorem sequence_getElem (h : Appended H start base (pre ++ e :: post)) {i : ℕ}
    (hi : i < post.length) : post[i].sequence = some (pre.length + 1 + i + 1) := by
  refine h.numbered _ _ ?_
  rw [List.getElem?_append_right (by omega), show pre.length + 1 + i - pre.length = i + 1 by omega,
    List.getElem?_cons_succ, List.getElem?_eq_getElem hi]

/-- Among the records behind the first one of a window, no gap means that the others are the next
ones. -/
theorem gap_iff (h : Appended H start base (pre ++ e :: post))
    (hbase : ∀ d ∈ base, d.sequence = none) {since : Timestamp}
    (hpre : ∀ d ∈ pre, ¬ since ≤ d.createdAt) (he : since ≤ e.createdAt) :
    (∀ d ∈ base ++ (pre ++ e :: post), ∀ f ∈ base ++ (pre ++ e :: post),
        ∀ g ∈ base ++ (pre ++ e :: post), d.numberedBefore f = true → f.numberedBefore g = true →
        since ≤ d.createdAt → since ≤ g.createdAt → since ≤ f.createdAt) ↔
      post.Pairwise fun f g =>
        decide (since ≤ g.createdAt) = true → decide (since ≤ f.createdAt) = true := by
  have hpairwise := h.numberedBefore
  rw [List.pairwise_append, List.pairwise_cons] at hpairwise
  obtain ⟨-, ⟨hhead, htail⟩, hcross⟩ := hpairwise
  have hnotBase : ∀ {d f : EvidenceRow}, d ∈ base → d.numberedBefore f ≠ true := by
    intro d f hd
    simp [EvidenceRow.numberedBefore, hbase d hd]
  have hnotBase' : ∀ {d f : EvidenceRow}, f ∈ base → d.numberedBefore f ≠ true := by
    intro d f hf
    simp [EvidenceRow.numberedBefore, hbase f hf]
  have hmem : ∀ {d}, d ∈ post → d ∈ base ++ (pre ++ e :: post) := fun hd => by simp [hd]
  constructor
  · intro hgap
    refine htail.imp_of_mem fun {f g} hf hg hfg hsg => ?_
    rw [decide_eq_true_eq] at hsg ⊢
    exact hgap e (by simp) f (hmem hf) g (hmem hg) (hhead f hf) hfg he hsg
  · intro hpost d hd f hf g hg hdf hfg hsd hsg
    have hd := (List.mem_append.1 hd).resolve_left fun hb => hnotBase hb hdf
    have hf := (List.mem_append.1 hf).resolve_left fun hb => hnotBase hb hfg
    have hg := (List.mem_append.1 hg).resolve_left fun hb => hnotBase' hb hfg
    have hd := (List.mem_append.1 hd).resolve_left fun hp => hpre d hp hsd
    have hf := (List.mem_append.1 hf).resolve_left fun hp =>
      numberedBefore_asymm hdf (hcross f hp d hd)
    have hg := (List.mem_append.1 hg).resolve_left fun hp =>
      numberedBefore_asymm hfg (hcross g hp f hf)
    rcases List.mem_cons.1 hf with rfl | hfpost
    · exact he
    · have hgpost : g ∈ post := by
        rcases List.mem_cons.1 hg with rfl | hgpost
        · exact (numberedBefore_asymm hfg (hhead f hfpost)).elim
        · exact hgpost
      obtain ⟨i, hi, rfl⟩ := List.mem_iff_getElem.1 hfpost
      obtain ⟨j, hj, rfl⟩ := List.mem_iff_getElem.1 hgpost
      have hij : i < j := by
        simp only [EvidenceRow.numberedBefore, h.sequence_getElem hi, h.sequence_getElem hj,
          Option.any_some, decide_eq_true_eq] at hfg
        omega
      exact of_decide_eq_true (List.pairwise_iff_getElem.1 hpost i j hi hj hij (decide_eq_true hsg))

/-- The first record of a window is linked to what is taken to precede it, unless that is a record
without a sequence. -/
theorem first_iff (h : Appended H start base (pre ++ e :: post)) :
    (payloadLinks H).Accepts (.ofText (pre.getLast?.map fun d => H.payloadHash d.payload))
      e.payload ↔ (pre = [] → base = []) := by
  have hprev := (h.split rfl).2
  have haccepts : ∀ b, (payloadLinks H).Accepts b e.payload ↔
      (payloadLinks H).tip (.ofText (previousChainHash H base))
        (pre.map fun d => d.payload) = b := by
    intro b
    refine ⟨fun ha => ha _ hprev, fun hb c hc => ?_⟩
    have hc : e.payload.get? "previous_hash" = some c := hc
    rw [hprev, Option.some.injEq] at hc
    rw [← hc, hb]
  rw [haccepts]
  by_cases hpre : pre = []
  · subst hpre
    rw [List.map_nil, HashLinks.tip_nil]
    cases hlast : latest base with
    | none => simp [firstRow_eq_none.1 hlast, previousChainHash, latest, firstRow]
    | some d =>
      have hne : base ≠ [] := List.ne_nil_of_mem (firstRow_some hlast).1
      simp [previousChainHash, hlast, hne, Json.ofText]
  · rw [HashLinks.tip_of_ne_nil (c := .null) (by simpa using hpre), tip_map]
    simp [hpre]

/-- A window that starts with number 1 starts the chain. -/
theorem first_iff' (h : Appended H start base (pre ++ e :: post))
    (hbase : ∀ d ∈ base, d.sequence = none) {since : Timestamp}
    (hpre : ∀ d ∈ pre, ¬ since ≤ d.createdAt) (he : since ≤ e.createdAt) :
    (∀ d ∈ base ++ (pre ++ e :: post), d.sequence = some 1 → since ≤ d.createdAt →
      ∀ f ∈ base ++ (pre ++ e :: post), f.sequence ≠ none) ↔ (pre = [] → base = []) := by
  constructor
  · rintro hfirst rfl
    have hall := hfirst e (by simp) (h.split rfl).1 he
    exact List.eq_nil_iff_forall_not_mem.2 fun d hd =>
      hall d (List.mem_append_left _ hd) (hbase d hd)
  · intro hnil d hd hone hsd f hf hfnone
    have hd := (List.mem_append.1 hd).resolve_left fun hb => by simp [hbase d hb] at hone
    cases pre with
    | nil =>
      rw [hnil rfl, List.nil_append] at hf
      obtain ⟨n, hn, -⟩ := h.sequence_le hf
      rw [hn] at hfnone
      cases hfnone
    | cons g pre =>
      have hg : g.sequence = some 1 := h.numbered 0 g rfl
      have hdg : d = g := h.eq_of_sequence hd (by simp) (hone.trans hg.symm)
      exact hpre g List.mem_cons_self (hdg ▸ hsd)

/-- Behind a record, a selection of the next ones is linked exactly if it leaves no gap. -/
theorem links_filter_iff (h : Appended H start base (pre ++ e :: post)) {sel : EvidenceRow → Bool}
    (hinj : (payloadsOf (pre ++ e :: post)).InjOn H.payloadHash)
    (hnodup : ((pre ++ e :: post).map fun d => d.payload).Nodup) :
    (payloadLinks H).LinksFrom (.str (H.payloadHash e.payload))
      ((post.filter sel).map fun d => d.payload) ↔ post.filter sel <+: post := by
  have hsub : e :: post ⊆ pre ++ e :: post := List.subset_append_right _ _
  have hlinks := h.links
  rw [List.map_append, HashLinks.linksFrom_append, List.map_cons, HashLinks.LinksFrom] at hlinks
  have hnodup' : (e :: post).Nodup := (List.Nodup.of_map _ hnodup).sublist
    (List.sublist_append_right _ _)
  have hrows : {d | d ∈ e :: post}.InjOn ((payloadLinks H).comap fun d : EvidenceRow => d.payload).hash := by
    intro d hd f hf hdf
    refine List.inj_on_of_nodup_map hnodup (hsub hd) (hsub hf) ?_
    exact hinj (mem_payloadsOf (hsub hd)) (mem_payloadsOf (hsub hf)) (Json.str.inj hdf)
  rw [← HashLinks.linksFrom_comap]
  exact HashLinks.linksFrom_filter hrows (fun d hd => hd) hnodup'
    (HashLinks.linksFrom_comap.2 hlinks.2.2) fun d hd => h.carries d (by simp [hd])

end Appended

section

variable {H : EvidenceHost} {clock since : Timestamp} {base S : List EvidenceRow}

theorem Legacy.window_since (h : Legacy clock base) (happ : Appended H clock base S) :
    window (base ++ S) (some since) = (sorted base).filter (fun e => since ≤ e.createdAt) ++
      S.filter fun e => since ≤ e.createdAt := by
  rw [h.window_eq happ, List.filter_append]
  rfl

/-- The legacy records of a window are the last ones of them. -/
theorem Legacy.sorted_split (h : Legacy clock base) (since : Timestamp) :
    sorted base = (sorted base).filter (fun e => !decide (since ≤ e.createdAt)) ++
      (sorted base).filter (fun e => since ≤ e.createdAt) := by
  have hmem : ∀ d ∈ sorted base, d ∈ base := fun d hd => (sorted_perm base).subset hd
  refine List.Perm.eq_of_pairwise (fun d f hd hf hdf hfd => ?_) (sorted_pairwise base) ?_ ?_
  · have hd := hmem d hd
    have hf : f ∈ base := by
      rcases List.mem_append.1 hf with hf | hf <;> exact hmem f (List.mem_filter.1 hf).1
    rw [h.inOrder_iff hd hf] at hdf
    rw [h.inOrder_iff hf hd] at hfd
    exact h.eq_of_byTime hd hf hdf hfd
  · refine List.pairwise_append.2 ⟨(sorted_pairwise base).filter _, (sorted_pairwise base).filter _,
      fun d hd f hf => ?_⟩
    rw [List.mem_filter] at hd hf
    have hlt : d.createdAt < since := by simpa using hd.2
    have hle : since ≤ f.createdAt := of_decide_eq_true hf.2
    rw [h.inOrder_iff (hmem d hd.1) (hmem f hf.1), EvidenceRow.byTime, decide_eq_true
      (hlt.trans_le hle), Bool.true_or]
  · have := List.filter_append_perm (fun e : EvidenceRow => !decide (since ≤ e.createdAt))
      (sorted base)
    simpa using this.symm

/-- A window with a legacy record has all of the appended ones, and goes back to the record before
it. -/
theorem Legacy.window_links (h : Legacy clock base) (happ : Appended H clock base S)
    (hlinks : (payloadLinks H).LinksFrom .null ((sorted base ++ S).map fun e => e.payload))
    (hlegacy : ∃ e ∈ base, since ≤ e.createdAt) :
    (payloadLinks H).LinksFrom
      (.ofText (expectedPrevious H (base ++ S) (window (base ++ S) (some since))))
      ((window (base ++ S) (some since)).map fun e => e.payload) := by
  obtain ⟨e, he, hsince⟩ := hlegacy
  have hS : S.filter (fun e => since ≤ e.createdAt) = S := by
    refine List.filter_eq_self.2 fun d hd => decide_eq_true ?_
    exact hsince.trans ((h.created e he).trans (happ.created d hd))
  have hsplit := h.sorted_split since
  rw [h.window_since happ, hS]
  have hout : ∀ d ∈ (sorted base).filter (fun e => !decide (since ≤ e.createdAt)),
      d.createdAt < since := fun d hd => by simpa using (List.mem_filter.1 hd).2
  cases hin : (sorted base).filter (fun e => since ≤ e.createdAt) with
  | nil =>
    have hemem : e ∈ (sorted base).filter fun e => since ≤ e.createdAt :=
      List.mem_filter.2 ⟨(sorted_perm base).mem_iff.2 he, decide_eq_true hsince⟩
    rw [hin] at hemem
    cases hemem
  | cons x post =>
    rw [hin] at hsplit
    have hx : since ≤ x.createdAt := by
      have hxmem : x ∈ (sorted base).filter (fun e => since ≤ e.createdAt) := by simp [hin]
      exact of_decide_eq_true (List.mem_filter.1 hxmem).2
    have hprec := h.preceding_eq happ hsplit fun d hd => (hout d hd).trans_le hx
    rw [expectedPrevious, List.cons_append, List.head?_cons, Option.bind_some, hprec, ← tip_map,
      ← List.cons_append]
    rw [hsplit, List.append_assoc, List.map_append, HashLinks.linksFrom_append] at hlinks
    exact hlinks.2

/-- A window of appended records alone. -/
theorem Legacy.window_links_iff (h : Legacy clock base) (happ : Appended H clock base S)
    (hinj : (payloadsOf S).InjOn H.payloadHash) (hnodup : (S.map fun e => e.payload).Nodup)
    (hnone : ∀ e ∈ base, ¬ since ≤ e.createdAt) :
    (payloadLinks H).LinksFrom
        (.ofText (expectedPrevious H (base ++ S) (window (base ++ S) (some since))))
        ((window (base ++ S) (some since)).map fun e => e.payload) ↔
      Gapless (base ++ S) since := by
  have hout : (sorted base).filter (fun e => since ≤ e.createdAt) = [] :=
    List.filter_eq_nil_iff.2 fun d hd => by simpa using hnone d ((sorted_perm base).subset hd)
  have hlegacy : ¬ ∃ e ∈ base ++ S, e.sequence = none ∧ since ≤ e.createdAt := by
    rintro ⟨e, he, hseq, hsince⟩
    rcases List.mem_append.1 he with he | he
    · exact hnone e he hsince
    · obtain ⟨n, hn, -⟩ := happ.sequence_le he
      rw [hn] at hseq
      cases hseq
  rw [h.window_since happ, hout, List.nil_append, Gapless, or_iff_right hlegacy]
  cases hin : S.filter (fun e => since ≤ e.createdAt) with
  | nil =>
    have hnot : ∀ e ∈ base ++ S, ¬ since ≤ e.createdAt := by
      intro e he
      rcases List.mem_append.1 he with he | he
      · exact hnone e he
      · simpa using List.filter_eq_nil_iff.1 hin e he
    refine iff_of_true trivial ⟨fun d hd _ _ _ _ _ _ hsince => ?_, fun e he _ hsince => ?_⟩
    · exact absurd hsince (hnot d hd)
    · exact absurd hsince (hnot e he)
  | cons x rest =>
    obtain ⟨pre, post, rfl, hpre, hx, rfl⟩ := List.filter_eq_cons_iff.1 hin
    have hpre : ∀ d ∈ pre, ¬ since ≤ d.createdAt := fun d hd => by simpa using hpre d hd
    have hx : since ≤ x.createdAt := of_decide_eq_true hx
    rw [expectedPrevious, List.head?_cons, Option.bind_some, happ.preceding h.unsequenced rfl]
    refine and_comm.trans (and_congr ?_ ?_)
    · rw [happ.gap_iff h.unsequenced hpre hx, ← HashLinks.filter_prefix_iff]
      exact happ.links_filter_iff hinj hnodup
    · rw [happ.first_iff, happ.first_iff' h.unsequenced hpre hx]

end

/-! ## Windows after a run -/

variable {ι : Type} [DecidableEq ι] {H : EvidenceHost} {s₀ : Ledger ι} {o : Uuid}
  {w : World LedgerStatement LedgerStatement.Answer PyError (Ledger ι) ι}

/-- **When a window is reported as intact**, at any point of any run of appending transactions after
legacy records that are in order: exactly if it shows no gap. -/
theorem verifyChain_window (hH : H.Verifies) (h : s₀.AtRest)
    (hlegacy : Legacy s₀.clock (chainOf s₀.committed.evidence (some o)))
    (hbase : (verifyChain H s₀.committed.evidence (some o) none).intact = true)
    (hw : Reach (ledgerMachine H ι) (LedgerService.signing H) (· = s₀) w)
    (hinj : (payloadsOf (chainOf w.store.committed.evidence (some o))).InjOn H.payloadHash)
    (since : Timestamp) :
    (verifyChain H w.store.committed.evidence (some o) (some since)).intact = true ↔
      Gapless (chainOf w.store.committed.evidence (some o)) since := by
  have hinv : ChainInv H s₀ o w.store := .reach h hlegacy.unsequenced hw
  obtain ⟨S, hS, happ⟩ := hinv.committed
  obtain ⟨hverified, hlinks⟩ := verifyChain_intact.1 hbase
  have hlinks := hlegacy.links_append happ (hlegacy.links hlinks)
  rw [hS] at hinj
  have hsub : ∀ e ∈ sorted (chainOf s₀.committed.evidence (some o)) ++ S,
      e ∈ chainOf s₀.committed.evidence (some o) ++ S := fun e he =>
    ((sorted_perm _).append_right S).subset he
  have hnodup : (S.map fun e => e.payload).Nodup := by
    rw [List.map_append] at hlinks
    refine hlinks.nodup (separates_payloads hinj) (fun p hp => ?_) fun p hp => ?_
    · rw [← List.map_append] at hp
      obtain ⟨e, he, rfl⟩ := List.mem_map.1 hp
      exact mem_payloadsOf (hsub e he)
    · obtain ⟨e, he, rfl⟩ := List.mem_map.1 hp
      exact happ.carries e he
  have hsigned : ∀ e ∈ window (chainOf s₀.committed.evidence (some o) ++ S) (some since),
      EvidenceService.verifyEvidence H.toCrypto H.settings H.keys e.toSignedPayload = true := by
    intro e he
    rw [hlegacy.window_eq happ] at he
    rcases List.mem_append.1 (hsub e (List.mem_filter.1 he).1) with he | he
    · exact hverified e (mem_window_none.2 he)
    · exact happ.verified hH he
  rw [verifyChain_intact, hS, and_iff_right hsigned]
  by_cases hold : ∃ e ∈ chainOf s₀.committed.evidence (some o), since ≤ e.createdAt
  · refine iff_of_true (hlegacy.window_links happ hlinks hold) (.inl ?_)
    obtain ⟨e, he, hsince⟩ := hold
    exact ⟨e, List.mem_append_left _ he, hlegacy.unsequenced e he, hsince⟩
  · refine hlegacy.window_links_iff happ (hinj.mono ?_) hnodup fun e he hsince => hold ⟨e, he, hsince⟩
    intro p hp
    obtain ⟨e, he, rfl⟩ := List.mem_map.1 hp
    exact mem_payloadsOf (List.mem_append_right _ he)

/-! ### A gap -/

open LedgerService

/-- A transaction begins, and the clock moves on; another one appends, then the first one, then a
third one. -/
def straddling : List LedgerMove :=
  [.start false (appendEvent 1), .go false, .start true (Prog.send (LedgerStatement.tick 5)),
      .go true, .go true, .start true (appendEvent 2)] ++ List.replicate 11 (.go true) ++
    List.replicate 10 (.go false) ++ .start true (appendEvent 3) :: List.replicate 11 (.go true)

theorem straddling_runs : (runMoves emptyLedger straddling).isSome = true := by decide +kernel

theorem straddling_signing :
    ∀ m ∈ straddling, ∀ p, m.program? = some p → p ∈ signing plainHost := by
  intro m hm p hp
  simp only [straddling, List.mem_append, List.mem_cons, List.mem_replicate, List.not_mem_nil,
    or_false] at hm
  rcases hm with (((rfl | rfl | rfl | rfl | rfl | rfl) | ⟨-, rfl⟩) | ⟨-, rfl⟩) | rfl | ⟨-, rfl⟩ <;> cases hp
  · exact appendEvent_mem _
  · exact .inl (.inr (.inr ⟨5, rfl⟩))
  · exact appendEvent_mem _
  · exact appendEvent_mem _

/-- The records of the ledger after it. -/
def straddled : List EvidenceRow :=
  ((runMoves emptyLedger straddling).get straddling_runs).store.committed.evidence

/-- A window of a chain with three records. -/
theorem verifyChain_window_straddled :
    (verifyChain plainHost straddled (some 7) (some 3)).intact = true ↔
      Gapless (chainOf straddled (some 7)) 3 := by
  have hhashes : ((chainOf straddled (some 7)).map fun e => plainHost.payloadHash e.payload).Nodup := by
    decide +kernel
  exact verifyChain_window plainHost_verifies emptyLedger_atRest
    ⟨by simp [emptyLedger, chainOf], by simp [emptyLedger, chainOf], by simp [emptyLedger, chainOf]⟩
    (by decide +kernel) (runMoves_reach straddling_signing straddling_runs) (injOn_payloadsOf hhashes)
    3

/-- The second record belongs to a transaction that began before the window. -/
theorem verifyChain_window_gap :
    ∃ w : World LedgerStatement LedgerStatement.Answer PyError (Ledger Bool) Bool,
      Reach (ledgerMachine plainHost Bool) (signing plainHost) (· = emptyLedger) w ∧
      w.store.committed.evidence.map (fun e => (e.sequence, e.createdAt)) =
        [(some 1, 5), (some 2, 0), (some 3, 5)] ∧
      (verifyChain plainHost w.store.committed.evidence (some 7) none).intact = true ∧
      (verifyChain plainHost w.store.committed.evidence (some 7) (some 3)).intact = false :=
  ⟨_, runMoves_reach straddling_signing straddling_runs, by decide +kernel, by decide +kernel,
    by decide +kernel⟩

end PayReality
