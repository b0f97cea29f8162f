import ModemSelect.Proofs.Origin

namespace ModemSelect

namespace Beat

def Asks (b : Beat) : Prop := ∃ target needs, .validationRequired target needs ∈ b.directives

/-- A validation under way is answered or called off. -/
def Closes (b : Beat) : Prop := b.Answers ∨ ∃ d ∈ b.directives, d.Stops

theorem silent {b : Beat} (directives : b.directives = []) (unanswered : ¬ b.Answers) :
    ¬ b.Asks ∧ ¬ b.Closes := by
  refine ⟨?_, ?_⟩
  · intro asks
    obtain ⟨target, needs, hm⟩ := asks
    simp [directives] at hm
  · intro closes
    rcases closes with answers | ⟨d, hd, -⟩
    · exact unanswered answers
    · simp [directives] at hd

theorem unclosed_of_asks {b : Beat} (asks : b.Asks) : ¬ b.Closes := by
  obtain ⟨target, needs, asks⟩ := asks
  obtain ⟨p, task, -, -, only⟩ := asks_spec asks
  intro closes
  rcases closes with answers | ⟨d, hd, stops⟩
  · rcases answers with ha | ha <;> rw [task] at ha <;> cases ha
  · rw [only, List.mem_singleton] at hd
    rw [hd] at stops
    exact stops

/-- A beat that asks for a validation leaves one under way, and one that closes it leaves none. -/
theorem validating_after (b : Beat) :
    b.after.validating = true ↔ b.Asks ∨ b.engine.validating = true ∧ ¬ b.Closes := by
  have flag : ∀ c : Course, b.after.course = c → b.after.validating = c.validating :=
    fun _ => Engine.validating_of_course
  have kept : b.directives = [] → ¬ b.Answers → b.after.validating = b.engine.validating →
      (b.after.validating = true ↔ b.Asks ∨ b.engine.validating = true ∧ ¬ b.Closes) := by
    intro directives unanswered same
    obtain ⟨asks, closes⟩ := silent directives unanswered
    simp [same, asks, closes]
  have ended : b.directives = [] → b.Answers → b.after.validating = false →
      (b.after.validating = true ↔ b.Asks ∨ b.engine.validating = true ∧ ¬ b.Closes) := by
    intro directives answers down
    have asks : ¬ b.Asks := fun ⟨_, _, hm⟩ => by simp [directives] at hm
    have closes : b.Closes := Or.inl answers
    simp [down, asks, closes]
  cases b.turn with
  | still course directives _ unanswered => exact kept directives unanswered (flag _ course)
  | stopped d course directives stops =>
    have asks : ¬ b.Asks := by
      intro asks
      obtain ⟨target, needs, hm⟩ := asks
      rw [directives, List.mem_singleton] at hm
      rw [← hm] at stops
      exact stops
    have closes : b.Closes := Or.inr ⟨d, by simp [directives], stops⟩
    simp [flag _ course, asks, closes, Course.cleared]
  | disregarded p decides _ course directives =>
    exact kept directives (unanswered_of_decides decides) (flag _ course)
  | kept p decides _ _ course directives =>
    exact kept directives (unanswered_of_decides decides) (flag _ course)
  | armed p decides _ _ course directives =>
    exact kept directives (unanswered_of_decides decides) (flag _ course)
  | retried _ task course directives => exact ended directives (Or.inl task) (flag _ course)
  | exhausted task course directives => exact ended directives (Or.inl task) (flag _ course)
  | completed task course directives => exact ended directives (Or.inr task) (flag _ course)
  | passed p task course directives =>
    have asks : b.Asks := ⟨p.target, p.needsValidation, by simp [directives]⟩
    simp [flag _ course, asks]
  | collected task course directives =>
    refine kept directives ?_ (flag _ course)
    intro answers
    rcases answers with ha | ha <;> rw [task] at ha <;> cases ha

end Beat

/-- A validation was asked for before the given point and has been neither answered nor called off
since. -/
def Outstanding (h : List Beat) (i : Nat) : Prop :=
  ∃ k b, k < i ∧ h[k]? = some b ∧ b.Asks ∧ Throughout h k i fun b => ¬ b.Closes

theorem outstanding_concat {h : List Beat} {b : Beat} :
    Outstanding (h ++ [b]) (h ++ [b]).length ↔ b.Asks ∨ Outstanding h h.length ∧ ¬ b.Closes := by
  have last : (h ++ [b])[h.length]? = some b := List.getElem?_concat_length
  rw [List.length_append, List.length_singleton]
  constructor
  · intro out
    obtain ⟨k, a, hk, ha, asks, unclosed⟩ := out
    rcases getElem?_concat_cases ha with old | ⟨rfl, rfl⟩
    · obtain ⟨hlt, -⟩ := List.getElem?_eq_some_iff.mp old
      refine Or.inr ⟨⟨k, a, hlt, old, asks, ?_⟩, unclosed _ b hlt (by omega) last⟩
      intro l d hkl hl hd
      exact unclosed l d hkl (by omega) (by rwa [List.getElem?_append_left hl])
    · exact Or.inl asks
  · intro cases
    rcases cases with asks | ⟨⟨k, a, hk, ha, asks, unclosed⟩, closes⟩
    · refine ⟨h.length, b, by omega, last, asks, ?_⟩
      intro l d hl hl' _
      omega
    · refine ⟨k, a, by omega, by rwa [List.getElem?_append_left hk], asks, ?_⟩
      have more := unclosed.concat closes
      rwa [List.length_append, List.length_singleton] at more

/-- The engine holds that a validation is under way just while one is outstanding. -/
theorem Underway.validating_iff {h : List Beat} {e : Engine} {m : Moment}
    {tray : List (TimerKey × TimerNote)} (u : Underway h e m tray) :
    e.validating = true ↔ Outstanding h h.length := by
  induction u with
  | start =>
    constructor
    · intro hv
      cases hv
    · intro out
      obtain ⟨k, b, hk, -⟩ := out
      simp at hk
  | @beat h b m tray tray' u takes ih => rw [b.validating_after, outstanding_concat, ih]

theorem outstanding_take {h : List Beat} {i : Nat} :
    Outstanding (h.take i) i ↔ Outstanding h i := by
  constructor
  · intro out
    obtain ⟨k, b, hk, hb, asks, unclosed⟩ := out
    rw [List.getElem?_take_of_lt hk] at hb
    exact ⟨k, b, hk, hb, asks, (Throughout.take (Nat.le_refl i)).mp unclosed⟩
  · intro out
    obtain ⟨k, b, hk, hb, asks, unclosed⟩ := out
    exact ⟨k, b, hk, by rwa [List.getElem?_take_of_lt hk], asks,
      (Throughout.take (Nat.le_refl i)).mpr unclosed⟩

theorem Run.validating_iff (r : Run) {i : Nat} {b : Beat} (hb : r.beats[i]? = some b) :
    b.engine.validating = true ↔ Outstanding r.beats i := by
  obtain ⟨m, u⟩ := r.underway
  obtain ⟨_, _, _, u', -⟩ := u.at hb
  rw [u'.validating_iff, length_take_of_getElem? hb, outstanding_take]

/-- While a check is on its way no other one is delivered, unless the same poll had collected that
one before the check was armed; then it comes right after. -/
theorem Origin.ask_behind {r : Run} {i : Nat} {m : Moment} {p : Pending} {j c : Nat}
    {s : Scheduled} (o : Origin r.beats i m p j c s) {k : Nat} {b : Beat} (hj : j < k) (hk : k < i)
    (hb : r.beats[k]? = some b) (asks : b.Asks) : k = j + 1 := by
  obtain ⟨target, needs, asks⟩ := asks
  obtain ⟨q, task, -⟩ := Beat.asks_spec asks
  obtain ⟨d, hd, collects, -⟩ := o.collected
  have hkc : k < c := by
    rcases Nat.lt_trichotomy k c with hlt | rfl | hgt
    · exact hlt
    · rw [hb] at hd
      cases hd
      rw [task] at collects
      cases collects
    · obtain ⟨reason, delivers⟩ := (o.ahead k b hgt hk hb).task
      rw [task] at delivers
      cases delivers
  obtain ⟨j', c', s', o'⟩ := r.origin hb task
  obtain ⟨a, ha, arms⟩ := o.armed
  exact o'.behind ha arms hj (o.kept.mono (Nat.le_refl j) (Nat.le_of_lt hkc))

/-- A second validation is asked for while one is outstanding just when its check was armed during
the first, or right before the poll delivered that one, and nothing closed the first meanwhile.
Armed during the first, the check was for another target. -/
theorem second_validation_iff (r : Run) {i : Nat} {b : Beat} {target : Nat} {needs : Bool}
    (hb : r.beats[i]? = some b) (asks : .validationRequired target needs ∈ b.directives) :
    ∃ p, b.task = .deliver (.stability p) ∧ p.target = target ∧ p.needsValidation = needs ∧
      (∃ j c s, Origin r.beats i b.moment p j c s) ∧
      ∀ j c s, Origin r.beats i b.moment p j c s →
        (Outstanding r.beats i ↔
          (Outstanding r.beats j ∨ ∃ a, r.beats[j + 1]? = some a ∧ a.Asks) ∧
            Throughout r.beats j i fun b => ¬ b.Closes) ∧
        (Outstanding r.beats j →
          ∃ a, r.beats[j]? = some a ∧ a.Decides p ∧ a.engine.target ≠ some target) := by
  obtain ⟨p, task, rfl, hneeds, -⟩ := Beat.asks_spec asks
  refine ⟨p, task, rfl, hneeds, r.origin hb task, fun j c s o => ?_⟩
  have order := o.order
  obtain ⟨a, ha, arms⟩ := o.armed
  obtain ⟨q, decides, free, directives, note, -⟩ := Beat.arms_spec (r.sound_at ha) arms
  rw [o.note] at note
  cases note
  obtain ⟨unasked, unclosed⟩ := Beat.silent directives (Beat.unanswered_of_decides decides)
  refine ⟨⟨?_, ?_⟩, ?_⟩
  · intro out
    obtain ⟨k, d, hk, hd, asks, since⟩ := out
    rcases Nat.lt_trichotomy k j with hlt | rfl | hgt
    · exact ⟨Or.inl ⟨k, d, hlt, hd, asks, since.mono (Nat.le_refl _) (by omega)⟩,
        since.mono (by omega) (Nat.le_refl _)⟩
    · rw [ha] at hd
      cases hd
      exact absurd asks unasked
    · have next := o.ask_behind hgt hk hd asks
      subst next
      exact ⟨Or.inr ⟨d, hd, asks⟩,
        Throughout.adjacent.join hd (Beat.unclosed_of_asks asks) since⟩
  · intro cases
    obtain ⟨first, since⟩ := cases
    rcases first with ⟨k, d, hk, hd, asks, before⟩ | ⟨d, hd, asks⟩
    · exact ⟨k, d, by omega, hd, asks, before.join ha unclosed since⟩
    · exact ⟨j + 1, d, by omega, hd, asks, since.mono (by omega) (Nat.le_refl _)⟩
  · intro out
    refine ⟨a, ha, decides, fun aimed => free ⟨?_, aimed⟩⟩
    exact (r.validating_iff ha).mpr out

/-- While slot 1 is validated its place among the active slots goes to slot 2, and a check for that
one passes before the validation is answered. -/
def Run.retargeted : Run where
  settings := {}
  count := 3
  phones := .sample .outOfService [0, 1]
  acts := [
    (⟨⟨0, 0⟩, .sample .outOfService [0, 1]⟩, .tell (.evaluationRequested .external)),
    (⟨⟨10000, 10000⟩, .sample .outOfService [0, 1]⟩, .poll),
    (⟨⟨10000, 10000⟩, .sample .outOfService [0, 2]⟩, .tell .subscriptionsChanged),
    (⟨⟨20000, 20000⟩, .sample .outOfService [0, 2]⟩, .poll)]

theorem retargeted_last : ∃ b, Run.retargeted.beats[5]? = some b ∧
    Directive.validationRequired 2 true ∈ b.directives ∧ Outstanding Run.retargeted.beats 5 := by
  have last : (Run.retargeted.beats[5]?).map (fun b => (b.engine.validating, b.directives)) =
      some (true, [.validationRequired 2 true]) := by decide +kernel
  obtain ⟨b, hb, he⟩ := Option.map_eq_some_iff.mp last
  obtain ⟨validating, directives⟩ := Prod.mk.inj he
  exact ⟨b, hb, by simp [directives], (Run.retargeted.validating_iff hb).mp validating⟩

theorem second_validation_iff_retargeted :
    ∃ j, j < 5 ∧
      (Outstanding Run.retargeted.beats j ∨
        ∃ a, Run.retargeted.beats[j + 1]? = some a ∧ a.Asks) ∧
      Throughout Run.retargeted.beats j 5 fun b => ¬ b.Closes := by
  obtain ⟨b, hb, asks, out⟩ := retargeted_last
  obtain ⟨p, -, -, -, ⟨j, c, s, o⟩, settled⟩ := second_validation_iff Run.retargeted hb asks
  have order := o.order
  exact ⟨j, by omega, (settled j c s o).1.mp out⟩

theorem second_validation_unclosed :
    ¬ ∀ (r : Run) (k i : Nat) (b b' : Beat), k < i → r.beats[k]? = some b →
      r.beats[i]? = some b' → b.Asks → b'.Asks →
        ∃ (l : Nat) (d : Beat), k < l ∧ l < i ∧ r.beats[l]? = some d ∧ d.Closes := by
  intro always
  obtain ⟨b', hb', asks', k, b, hk, hb, asks, unclosed⟩ := retargeted_last
  obtain ⟨l, d, hkl, hl, hd, closes⟩ :=
    always Run.retargeted k 5 b b' hk hb hb' asks ⟨2, true, asks'⟩
  exact unclosed l d hkl hl hd closes

end ModemSelect
