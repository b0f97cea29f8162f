import ModemSelect.Choice.Leaving

namespace ModemSelect

/-- Where roaming slots are compared, a slot is no challenge while it ranks no higher and, on a par
and usable, scores no higher by more than the tolerance. Otherwise only a slot at home is one, by
its score or, where scores are not compared, while the default is not at home. -/
theorem Standing.challenge_eq_none_iff {candidate current : Standing} {settings : Settings} :
    candidate.challenge settings current = none ↔
      if settings.comparesRoaming then
        candidate.usable.rank ≤ current.usable.rank ∧
          (settings.comparesScores = true → candidate.usable.rank = current.usable.rank →
            candidate.usable.isUsable = true → candidate.outscores settings current = false)
      else candidate.state = .home →
        if settings.comparesScores then candidate.outscores settings current = false
        else current.state = .home := by
  unfold challenge
  grind

/-- The tolerance is not negative where scores are compared. -/
theorem Standing.score_lt_of_outscores {candidate current : Standing} {settings : Settings}
    (compares : settings.comparesScores = true)
    (h : candidate.outscores settings current = true) : current.score < candidate.score := by
  simp only [Settings.comparesScores, Bool.and_eq_true, decide_eq_true_eq] at compares
  simp only [outscores, decide_eq_true_eq] at h
  omega

theorem Standing.precedes_trans {a b c : Standing} (hab : a.precedes b = true)
    (hbc : b.precedes c = true) : a.precedes c = true := by
  simp only [precedes, Bool.or_eq_true, Bool.and_eq_true, decide_eq_true_eq, beq_iff_eq] at *
  omega

theorem Standing.precedes_total (a b : Standing) : (a.precedes b || b.precedes a) = true := by
  simp only [precedes, Bool.or_eq_true, Bool.and_eq_true, decide_eq_true_eq, beq_iff_eq]
  omega

namespace Situation

theorem mem_challengers {s : Situation} {current candidate : Standing} {performance : Bool} :
    (candidate, performance) ∈ s.challengers current ↔
      candidate ∈ s.standings ∧ candidate.id ≠ current.id ∧
        candidate.challenge s.settings current = some performance := by
  simp only [challengers, List.mem_mergeSort, List.mem_filterMap, List.mem_filter, bne_iff_ne,
    Option.map_eq_some_iff, Prod.mk.injEq]
  constructor
  · intro h
    obtain ⟨c, ⟨hm, hne⟩, p, hp, rfl, rfl⟩ := h
    exact ⟨hm, hne, hp⟩
  · intro h
    obtain ⟨hm, hne, hp⟩ := h
    exact ⟨candidate, ⟨hm, hne⟩, performance, hp, rfl, rfl⟩

theorem pairwise_challengers (s : Situation) (current : Standing) :
    (s.challengers current).Pairwise fun a b => a.1.precedes b.1 = true := by
  refine List.pairwise_mergeSort (fun a b c hab hbc => ?_) (fun a b => ?_) _
  · exact Standing.precedes_trans hab hbc
  · exact Standing.precedes_total a.1 b.1

/-- What comes of asking the slots of a queue in turn until one of them allows internet. -/
inductive Inquiry (ping : Bool) (allows : Nat → Bool) (queue : List (Standing × Bool)) :
    Answered → Prop where
  | refused (all : ∀ entry ∈ queue, allows entry.1.id = false) :
      Inquiry ping allows queue ⟨.noAction, queue.map (·.1.id)⟩
  | allowed {before after : List (Standing × Bool)} {candidate : Standing} {performance : Bool}
      (split : queue = before ++ (candidate, performance) :: after)
      (refusals : ∀ entry ∈ before, allows entry.1.id = false)
      (allowance : allows candidate.id = true) :
      Inquiry ping allows queue
        ⟨.pending ⟨candidate.id, performance, ping⟩, before.map (·.1.id) ++ [candidate.id]⟩

section Inquiry

variable {ping : Bool} {allows : Nat → Bool} {queue : List (Standing × Bool)}

/-- A slot that refuses is asked first and changes nothing else. -/
theorem Inquiry.cons {answered : Answered} (h : Inquiry ping allows queue answered)
    {candidate : Standing} (refused : allows candidate.id = false) (performance : Bool) :
    Inquiry ping allows ((candidate, performance) :: queue)
      ⟨answered.decision, candidate.id :: answered.asked⟩ := by
  cases h with
  | refused all => exact .refused (List.forall_mem_cons.mpr ⟨refused, all⟩)
  | @allowed before after taken performance' split refusals allowance =>
    have split' : (candidate, performance) :: queue =
        ((candidate, performance) :: before) ++ (taken, performance') :: after := by
      rw [split, List.cons_append]
    exact .allowed split' (List.forall_mem_cons.mpr ⟨refused, refusals⟩) allowance

theorem inquiry_firstAllowed (ping : Bool) (allows : Nat → Bool)
    (queue : List (Standing × Bool)) :
    Inquiry ping allows queue (firstAllowed ping allows queue) := by
  induction queue with
  | nil => exact .refused (by simp)
  | cons first rest ih =>
    obtain ⟨candidate, performance⟩ := first
    rw [firstAllowed]
    split
    next allowed =>
      have split : (candidate, performance) :: rest = [] ++ (candidate, performance) :: rest := rfl
      exact .allowed split (by simp) allowed
    next refused => exact ih.cons (Bool.not_eq_true _ ▸ refused) performance

theorem firstAllowed_pending {p : Pending}
    (h : (firstAllowed ping allows queue).decision = .pending p) :
    ∃ candidate, (candidate, p.performance) ∈ queue ∧ allows candidate.id = true ∧
      p.target = candidate.id ∧ p.needsValidation = ping := by
  have inquiry := inquiry_firstAllowed ping allows queue
  generalize firstAllowed ping allows queue = answered at h inquiry
  cases inquiry with
  | refused all => cases h
  | @allowed before after candidate performance split refusals allowance =>
    cases h
    exact ⟨candidate, by simp [split], allowance, rfl, rfl⟩

/-- Of a queue in order the candidate is taken that nothing else allowed precedes. -/
theorem firstAllowed_of_best (sorted : queue.Pairwise fun a b => a.1.precedes b.1 = true)
    {candidate : Standing} {performance : Bool} (queued : (candidate, performance) ∈ queue)
    (allowed : allows candidate.id = true)
    (best : ∀ entry ∈ queue, entry ≠ (candidate, performance) → allows entry.1.id = true →
      entry.1.precedes candidate = false) :
    (firstAllowed ping allows queue).decision = .pending ⟨candidate.id, performance, ping⟩ := by
  have inquiry := inquiry_firstAllowed ping allows queue
  generalize firstAllowed ping allows queue = answered at inquiry
  cases inquiry with
  | refused all => exact absurd allowed (by simpa using all _ queued)
  | @allowed before after taken performance' split refusals allowance =>
    by_cases same : (taken, performance') = (candidate, performance)
    · cases same
      rfl
    · -- What is asked after the one that is taken comes behind it.
      have first := best (taken, performance') (by simp [split]) same allowance
      rw [split] at sorted queued
      rcases List.mem_append.mp queued with earlier | later
      · exact absurd allowed (by simpa using refusals _ earlier)
      · have behind := (List.mem_cons.mp later).resolve_left (Ne.symm same)
        have ahead := (List.pairwise_cons.mp (List.pairwise_append.mp sorted).2.1).1 _ behind
        rw [first] at ahead
        cases ahead

theorem firstAllowed_noAction_iff :
    (firstAllowed ping allows queue).decision = .noAction ↔
      ∀ entry ∈ queue, allows entry.1.id = false := by
  have inquiry := inquiry_firstAllowed ping allows queue
  generalize firstAllowed ping allows queue = answered at inquiry
  cases inquiry with
  | refused all => exact iff_of_true rfl all
  | @allowed before after candidate performance split refusals allowance =>
    have queued : (candidate, performance) ∈ queue := by simp [split]
    refine iff_of_false (fun idle => by cases idle) (fun all => ?_)
    exact absurd allowance (by simpa using all _ queued)

end Inquiry

theorem firstAllowed_ne_immediate (ping : Bool) (allows : Nat → Bool)
    (queue : List (Standing × Bool)) (target : Nat) (why : Urgency) :
    (firstAllowed ping allows queue).decision ≠ .immediate target why := by
  have inquiry := inquiry_firstAllowed ping allows queue
  generalize firstAllowed ping allows queue = answered at inquiry
  cases inquiry <;> simp

theorem standing?_eq_some {s : Situation} {id : Nat} {x : Standing}
    (h : s.standing? id = some x) : x ∈ s.standings ∧ x.id = id :=
  ⟨List.mem_of_find?_eq_some h, by simpa using List.find?_some h⟩

theorem standing?_eq_none_iff {s : Situation} {id : Nat} :
    s.standing? id = none ↔ id ∉ s.standings.map (·.id) := by
  simp [standing?]

/-- A switch away from the default is to a challenger that allows internet. -/
theorem leaveDefault_pending {s : Situation} {allows : Nat → Bool} {p : Pending}
    (h : (s.leaveDefault allows).decision = .pending p) :
    ∃ current candidate, s.standing? s.default = some current ∧ candidate ∈ s.standings ∧
      candidate.id ≠ s.default ∧ candidate.challenge s.settings current = some p.performance ∧
      allows candidate.id = true ∧ p.target = candidate.id ∧
      p.needsValidation = s.settings.requirePing := by
  unfold leaveDefault at h
  split at h
  next => cases h
  next current hc =>
    obtain ⟨candidate, hm, allowed, target, needs⟩ := firstAllowed_pending h
    obtain ⟨hs, hne, challenge⟩ := mem_challengers.mp hm
    rw [(standing?_eq_some hc).2] at hne
    exact ⟨current, candidate, hc, hs, hne, challenge, allowed, target, needs⟩

/-- Data leaves the default for the challenger that no other one with internet precedes. -/
theorem leaveDefault_of_best {s : Situation} {allows : Nat → Bool} {current candidate : Standing}
    {performance : Bool} (hc : s.standing? s.default = some current)
    (hm : candidate ∈ s.standings) (hne : candidate.id ≠ s.default)
    (challenge : candidate.challenge s.settings current = some performance)
    (allowed : allows candidate.id = true)
    (best : ∀ other ∈ s.standings, other.id ≠ s.default → other ≠ candidate →
      other.challenge s.settings current ≠ none → allows other.id = true →
        other.precedes candidate = false) :
    (s.leaveDefault allows).decision =
      .pending ⟨candidate.id, performance, s.settings.requirePing⟩ := by
  have hid := (standing?_eq_some hc).2
  have queued := mem_challengers.mpr ⟨hm, hid ▸ hne, challenge⟩
  rw [leaveDefault, hc]
  refine firstAllowed_of_best (s.pairwise_challengers current) queued allowed ?_
  intro entry hq other allowed'
  obtain ⟨standing, performance'⟩ := entry
  obtain ⟨hs, hne', challenge'⟩ := mem_challengers.mp hq
  refine best standing hs (hid ▸ hne') (fun same => other ?_) (by simp [challenge']) allowed'
  subst same
  rw [challenge] at challenge'
  cases challenge'
  rfl

/-- Data leaves the default for performance only where scores are compared. -/
theorem leaveDefault_performance {s : Situation} {allows : Nat → Bool} {p : Pending}
    (h : (s.leaveDefault allows).decision = .pending p) (performance : p.performance = true) :
    s.settings.comparesScores = true := by
  obtain ⟨current, candidate, -, -, -, challenge, -⟩ := leaveDefault_pending h
  rw [performance] at challenge
  unfold Standing.challenge at challenge
  grind

theorem leaveDefault_ne_immediate (s : Situation) (allows : Nat → Bool) (target : Nat)
    (why : Urgency) : (s.leaveDefault allows).decision ≠ .immediate target why := by
  unfold leaveDefault
  split
  next => simp
  next => exact firstAllowed_ne_immediate _ _ _ target why

theorem exists_pending_iff {s : Situation} {allows : Nat → Bool} :
    (∃ p, (s.leaveDefault allows).decision = .pending p) ↔
      (s.leaveDefault allows).decision ≠ .noAction := by
  cases h : (s.leaveDefault allows).decision with
  | pending p => simp
  | immediate target why => exact absurd h (leaveDefault_ne_immediate s allows target why)
  | noAction => simp

/-- The default keeps data just when no challenger allows internet. -/
theorem leaveDefault_noAction_iff {s : Situation} {allows : Nat → Bool} {current : Standing}
    (hc : s.standing? s.default = some current) :
    (s.leaveDefault allows).decision = .noAction ↔
      ∀ candidate ∈ s.standings, candidate.id ≠ s.default →
        candidate.challenge s.settings current ≠ none → allows candidate.id = false := by
  rw [leaveDefault, hc, firstAllowed_noAction_iff]
  have hid := (standing?_eq_some hc).2
  constructor
  · intro h candidate hm hne challenge
    obtain ⟨performance, hp⟩ := Option.ne_none_iff_exists'.mp challenge
    exact h (candidate, performance) (mem_challengers.mpr ⟨hm, hid ▸ hne, hp⟩)
  · intro h entry hm
    obtain ⟨candidate, performance⟩ := entry
    obtain ⟨hs, hne, hp⟩ := mem_challengers.mp hm
    exact h candidate hs (hid ▸ hne) (by simp [hp])

end Situation

end ModemSelect
