import ModemSelect.Proofs.Challengers
import ModemSelect.Proofs.Lists

namespace ModemSelect

namespace Standing

/-- Of two slots the one of the higher rank is ahead, on a par the one of the higher score, and of
two that are alike in both the lower one. -/
def Outranks (a b : Standing) : Prop :=
  b.usable.rank < a.usable.rank ∨ a.usable.rank = b.usable.rank ∧
    (b.score < a.score ∨ a.score = b.score ∧ a.id < b.id)

theorem Outranks.asymm {a b : Standing} (h : a.Outranks b) : ¬ b.Outranks a := by
  unfold Outranks at *
  omega

theorem not_outranks_self (a : Standing) : ¬ a.Outranks a := fun h => h.asymm h

theorem precedes_iff_outranks {a b : Standing} (different : a.id ≠ b.id) :
    a.precedes b = true ↔ a.Outranks b := by
  simp only [precedes, Outranks, Bool.or_eq_true, Bool.and_eq_true, decide_eq_true_eq, beq_iff_eq]
  omega

end Standing

namespace Situation

/-- The queue of the slots worth leaving the default for, each with whether for performance: just
these, the best first. -/
structure Ranking (s : Situation) (current : Standing) (queue : List (Standing × Bool)) :
    Prop where
  mem_iff : ∀ candidate performance, (candidate, performance) ∈ queue ↔
    candidate ∈ s.standings ∧ candidate.id ≠ s.default ∧
      candidate.challenge s.settings current = some performance
  ordered : queue.Pairwise fun a b => a.1.Outranks b.1

/-- Nothing allowed is ahead of what the inquiry along an ordered queue ends with. -/
theorem Inquiry.best {ping : Bool} {allows : Nat → Bool} {queue : List (Standing × Bool)}
    {answered : Answered} (h : Inquiry ping allows queue answered)
    (ordered : queue.Pairwise fun a b => a.1.Outranks b.1) {p : Pending}
    (decides : answered.decision = .pending p) :
    ∃ target, (target, p.performance) ∈ queue ∧ target.id = p.target ∧
      ∀ entry ∈ queue, allows entry.1.id = true → ¬ entry.1.Outranks target := by
  cases h with
  | refused all => cases decides
  | @allowed before after target performance split refusals allowance =>
    cases decides
    subst split
    obtain ⟨-, later, -⟩ := List.pairwise_append.mp ordered
    have behind := (List.pairwise_cons.mp later).1
    refine ⟨target, by simp, rfl, fun entry hm allowed => ?_⟩
    rcases List.mem_append.mp hm with earlier | hm
    · exact absurd allowed (by simpa using refusals entry earlier)
    · rcases List.mem_cons.mp hm with rfl | after
      · exact target.not_outranks_self
      · exact (behind entry after).asymm

variable {s : Situation} {current : Standing}

/-- A situation has one queue. -/
theorem Ranking.unique {queue queue' : List (Standing × Bool)} (h : s.Ranking current queue)
    (h' : s.Ranking current queue') : queue = queue' := by
  have distinct : ∀ {q}, s.Ranking current q → q.Nodup := by
    intro q ranking
    refine ranking.ordered.imp fun {a b} ahead same => ?_
    subst same
    exact a.1.not_outranks_self ahead
  have perm : queue.Perm queue' := by
    apply (List.perm_ext_iff_of_nodup (distinct h) (distinct h')).mpr
    intro entry
    exact (h.mem_iff entry.1 entry.2).trans (h'.mem_iff entry.1 entry.2).symm
  exact perm.eq_of_pairwise (fun _ _ _ _ ahead behind => absurd behind ahead.asymm) h.ordered
    h'.ordered

theorem Ranking.perm {queue : List (Standing × Bool)} (h : s.Ranking current queue)
    {standings : List Standing} (perm : standings.Perm s.standings) :
    ({ s with standings } : Situation).Ranking current queue where
  mem_iff candidate performance := by
    rw [h.mem_iff, perm.mem_iff]
  ordered := h.ordered

section Distinct

variable (distinct : (s.standings.map (·.id)).Nodup)
include distinct

theorem standing?_eq_some_iff {id : Nat} {x : Standing} :
    s.standing? id = some x ↔ x ∈ s.standings ∧ x.id = id :=
  find?_key_eq_some distinct

theorem pairwise_outranks (current : Standing) :
    (s.challengers current).Pairwise fun a b => a.1.Outranks b.1 := by
  -- The order of the sort has ties, but only between standings of one slot.
  have different : s.standings.Pairwise fun a b => a.id ≠ b.id := List.pairwise_map.mp distinct
  have apart : (s.challengers current).Pairwise fun a b => a.1.id ≠ b.1.id := by
    refine ((List.mergeSort_perm _ _).pairwise_iff fun h => h.symm).mpr ?_
    refine List.pairwise_filterMap.mpr ((different.filter _).imp fun {a b} ne x hx y hy => ?_)
    obtain ⟨_, -, rfl⟩ := Option.map_eq_some_iff.mp hx
    obtain ⟨_, -, rfl⟩ := Option.map_eq_some_iff.mp hy
    exact ne
  exact (s.pairwise_challengers current).imp₂
    (fun _ _ precedes ne => (Standing.precedes_iff_outranks ne).mp precedes) apart

theorem ranking_challengers (hc : s.standing? s.default = some current) :
    s.Ranking current (s.challengers current) where
  mem_iff candidate performance := by
    rw [mem_challengers, (standing?_eq_some hc).2]
  ordered := pairwise_outranks distinct current

theorem Ranking.inquiry {queue : List (Standing × Bool)} (ranking : s.Ranking current queue)
    (hc : s.standing? s.default = some current) (allows : Nat → Bool) :
    Inquiry s.settings.requirePing allows queue (s.leaveDefault allows) := by
  rw [ranking.unique (ranking_challengers distinct hc), leaveDefault, hc]
  exact inquiry_firstAllowed s.settings.requirePing allows (s.challengers current)

/-- No challenger with internet is ahead of the one that data leaves the default for. -/
theorem leaveDefault_best {allows : Nat → Bool} {p : Pending}
    (h : (s.leaveDefault allows).decision = .pending p)
    (hc : s.standing? s.default = some current) :
    ∃ target ∈ s.standings, target.id = p.target ∧ target.id ≠ s.default ∧
      target.challenge s.settings current = some p.performance ∧
      ∀ other ∈ s.standings, other.id ≠ s.default → other.challenge s.settings current ≠ none →
        allows other.id = true → ¬ other.Outranks target := by
  have ranking := ranking_challengers distinct hc
  obtain ⟨target, queued, hid, best⟩ := (ranking.inquiry distinct hc allows).best ranking.ordered h
  obtain ⟨hm, hne, challenge⟩ := (ranking.mem_iff _ _).mp queued
  refine ⟨target, hm, hid, hne, challenge, fun other hm' hne' challenge' allowed => ?_⟩
  obtain ⟨performance, hp⟩ := Option.ne_none_iff_exists'.mp challenge'
  exact best _ ((ranking.mem_iff other performance).mpr ⟨hm', hne', hp⟩) allowed

theorem leaveDefault_perm {standings : List Standing} (perm : standings.Perm s.standings)
    (allows : Nat → Bool) :
    ({ s with standings } : Situation).leaveDefault allows = s.leaveDefault allows := by
  have distinct' : (standings.map (·.id)).Nodup := (perm.map _).nodup_iff.mpr distinct
  have found : ({ s with standings } : Situation).standing? s.default = s.standing? s.default := by
    refine Option.ext fun x => ?_
    rw [standing?_eq_some_iff distinct', standing?_eq_some_iff distinct, perm.mem_iff]
  cases hc : s.standing? s.default with
  | none => simp only [leaveDefault, found, hc]
  | some current =>
    have queue := (ranking_challengers distinct hc).perm perm
    have queue' := ranking_challengers (s := { s with standings }) distinct' (found.trans hc)
    simp only [leaveDefault, found, hc, queue.unique queue']

/-- Data leaves the default for the best slot that allows internet. The slots worth it are ranked,
and just those are asked, in their order, up to the first that allows it, so that nothing allowed
is ahead of the target. Without a default nobody is asked. How the list is ordered is no matter. -/
theorem leaves_for_best_allowed (allows : Nat → Bool) :
    (s.default ∉ s.standings.map (·.id) → s.leaveDefault allows = ⟨.noAction, []⟩) ∧
    (∀ current ∈ s.standings, current.id = s.default →
      (∃ queue, s.Ranking current queue) ∧
      ∀ queue, s.Ranking current queue →
        Inquiry s.settings.requirePing allows queue (s.leaveDefault allows) ∧
        ∀ p, (s.leaveDefault allows).decision = .pending p →
          ∀ target ∈ s.standings, target.id = p.target →
            ∀ entry ∈ queue, allows entry.1.id = true → ¬ entry.1.Outranks target) ∧
    ∀ standings, standings.Perm s.standings →
      ({ s with standings } : Situation).leaveDefault allows = s.leaveDefault allows := by
  refine ⟨fun absent => ?_, fun current hm hid => ?_, fun standings perm => ?_⟩
  · rw [leaveDefault, standing?_eq_none_iff.mpr absent]
  · have hc := (standing?_eq_some_iff distinct).mpr ⟨hm, hid⟩
    refine ⟨⟨_, ranking_challengers distinct hc⟩, fun queue ranking => ?_⟩
    refine ⟨ranking.inquiry distinct hc allows, fun p decides target ht same entry he allowed => ?_⟩
    obtain ⟨best, hb, hbid, -, -, ahead⟩ := leaveDefault_best distinct decides hc
    have heq : target = best := List.inj_on_of_nodup_map distinct ht hb (same.trans hbid.symm)
    obtain ⟨he, hne, challenge⟩ := (ranking.mem_iff entry.1 entry.2).mp he
    rw [heq]
    exact ahead entry.1 he hne (by simp [challenge]) allowed
  · exact leaveDefault_perm distinct perm allows

end Distinct

/-- The default 0 roams. Slot 1 is at home, 2 and 3 roam with higher scores and 4 has no service. -/
def offered : Situation where
  settings := {}
  default := 0
  preferred := 0
  standings := [⟨2, .roaming, .roamingEnabled, 300⟩, ⟨4, .unknown, .notUsable, 0⟩,
    ⟨0, .roaming, .roamingEnabled, 100⟩, ⟨3, .roaming, .nonTerrestrial, 500⟩,
    ⟨1, .home, .home, 50⟩]

theorem ranking_offered : offered.Ranking ⟨0, .roaming, .roamingEnabled, 100⟩
    [(⟨1, .home, .home, 50⟩, false), (⟨3, .roaming, .nonTerrestrial, 500⟩, true),
      (⟨2, .roaming, .roamingEnabled, 300⟩, true)] where
  mem_iff candidate performance := by
    constructor
    · intro h
      simp only [List.mem_cons, List.not_mem_nil, or_false, Prod.mk.injEq] at h
      rcases h with ⟨rfl, rfl⟩ | ⟨rfl, rfl⟩ | ⟨rfl, rfl⟩ <;> decide
    · intro h
      obtain ⟨hm, hne, challenge⟩ := h
      simp only [offered, List.mem_cons, List.not_mem_nil, or_false] at hm
      rcases hm with rfl | rfl | rfl | rfl | rfl <;> cases challenge <;> decide
  ordered := by simp [Standing.Outranks, Usability.rank]

/-- The slot at home is the best and refuses; the next best is taken, for performance, and the third
is not asked any more. -/
theorem leaves_for_best_allowed_second :
    (offered.standings.map (·.id)).Nodup ∧
      offered.leaveDefault (· != 1) = ⟨.pending ⟨3, true, true⟩, [1, 3]⟩ ∧
      Inquiry true (· != 1) [(⟨1, .home, .home, 50⟩, false),
        (⟨3, .roaming, .nonTerrestrial, 500⟩, true), (⟨2, .roaming, .roamingEnabled, 300⟩, true)]
        ⟨.pending ⟨3, true, true⟩, [1, 3]⟩ ∧
      ({ offered with standings := offered.standings.reverse } : Situation).leaveDefault (· != 1) =
        ⟨.pending ⟨3, true, true⟩, [1, 3]⟩ := by
  have distinct : (offered.standings.map (·.id)).Nodup := by decide
  have default : ⟨0, .roaming, .roamingEnabled, 100⟩ ∈ offered.standings := by decide
  have found : offered.standing? offered.default = some ⟨0, .roaming, .roamingEnabled, 100⟩ := rfl
  have queue := (ranking_challengers distinct found).unique ranking_offered
  have taken : offered.leaveDefault (· != 1) = ⟨.pending ⟨3, true, true⟩, [1, 3]⟩ := by
    simp only [leaveDefault, found, queue]
    decide
  obtain ⟨-, asks, perm⟩ := leaves_for_best_allowed distinct (· != 1)
  have inquiry := ((asks _ default rfl).2 _ ranking_offered).1
  rw [taken] at inquiry
  exact ⟨distinct, taken, inquiry, (perm _ (List.reverse_perm _)).trans taken⟩

end Situation

end ModemSelect
