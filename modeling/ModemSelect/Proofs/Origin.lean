import ModemSelect.Proofs.Sound

namespace ModemSelect

namespace Beat

theorem decides_unique {b : Beat} {p q : Pending} (hp : b.Decides p) (hq : b.Decides q) :
    p = q := by
  obtain ⟨e, reason, he, hp⟩ := hp
  rw [decides_iff he, hp] at hq
  cases hq
  rfl

/-- A check is armed by an evaluation that decides on its switch while no validation of the target
runs, with the delay and on the clock that are in force then. -/
theorem arms_spec {b : Beat} (sound : b.course.Sound) {s : Scheduled} (arms : b.Arms s) :
    ∃ p, b.Decides p ∧ ¬ (b.engine.validating = true ∧ b.engine.target = some p.target) ∧
      b.directives = [] ∧ s.note = .stability p ∧
      s.delay = b.after.settings.stabilityDelay p.performance ∧
      s.backend = Backend.forDelay s.delay ∧
      s.deadline = Clock.deadline (b.moment.clock.now s.backend.timeBase) s.delay := by
  obtain ⟨after, before⟩ := arms
  cases b.turn with
  | still course =>
    rw [Engine.timers_of_course course] at after
    exact absurd after before
  | stopped d course =>
    rw [Engine.timers_of_course course] at after
    simp [Course.cleared, Timers.record?_cancel] at after
  | disregarded p decides busy course =>
    rw [Engine.timers_of_course course] at after
    exact absurd after before
  | kept p decides free carries course =>
    rw [Engine.timers_of_course course] at after
    exact absurd after before
  | armed p decides free fresh course directives =>
    rw [Engine.timers_of_course course, Timers.record?_arm, if_pos rfl] at after
    cases after
    exact ⟨p, decides, free, directives, rfl, rfl, rfl, rfl⟩
  | retried delay task course =>
    rw [Engine.timers_of_course course, Timers.record?_schedule_of_ne (by decide)] at after
    exact absurd after before
  | exhausted task course =>
    rw [Engine.timers_of_course course, Timers.record?_cancel, if_neg (by decide)] at after
    exact absurd after before
  | completed task course =>
    rw [Engine.timers_of_course course, Timers.record?_cancel, if_neg (by decide)] at after
    exact absurd after before
  | passed p task course =>
    rw [Engine.timers_of_course course] at after
    exact absurd after before
  | collected task course =>
    have left := Timers.record?_fireDue sound.timers b.moment.clock .stabilityCheck
    rw [Engine.timers_of_course course] at after
    have held := Option.filter_eq_some_iff.mp (left.symm.trans after)
    exact absurd held.1 before

end Beat

/-- A retry is delivered in the given moment. -/
structure Beat.Retries (b : Beat) (m : Moment) : Prop where
  task : ∃ reason, b.task = .deliver (.evaluate reason)
  moment : b.moment = m
  failed : 0 < b.engine.retry.failures

/-- Where the stability check that is delivered at a point of a run comes from: the beat that
armed it, the poll that collected it and what was on record for it in between. The poll may have
had a retry to deliver first. -/
structure Origin (h : List Beat) (i : Nat) (m : Moment) (p : Pending) (j c : Nat) (s : Scheduled) :
    Prop where
  order : j < c ∧ c < i
  armed : ∃ b, h[j]? = some b ∧ b.Arms s
  note : s.note = .stability p
  kept : Throughout h j c fun b => b.after.timers.record? .stabilityCheck = some s
  collected : ∃ b, h[c]? = some b ∧ b.task = .collect ∧ b.moment = m ∧
    b.engine.timers.record? .stabilityCheck = some s ∧
    s.deadline ≤ m.clock.now s.backend.timeBase ∧ b.after.timers.record? .stabilityCheck = none
  ahead : Throughout h c i fun b => b.Retries m
  near : i ≤ c + 2

namespace Origin

variable {h : List Beat} {i : Nat} {m : Moment} {p : Pending} {j c : Nat} {s : Scheduled}

theorem append (o : Origin h i m p j c s) (hi : i ≤ h.length) (rest : List Beat) :
    Origin (h ++ rest) i m p j c s := by
  obtain ⟨hjc, hci⟩ := o.order
  obtain ⟨b, hb, arms⟩ := o.armed
  obtain ⟨b', hb', collected⟩ := o.collected
  refine ⟨o.order, ⟨b, ?_, arms⟩, o.note, ?_, ⟨b', ?_, collected⟩, ?_, o.near⟩
  · rwa [List.getElem?_append_left (by omega)]
  · exact o.kept.append (by omega) rest
  · rwa [List.getElem?_append_left (by omega)]
  · exact o.ahead.append hi rest

theorem concat (o : Origin h h.length m p j c s) {b : Beat} (retries : b.Retries m)
    (near : h.length ≤ c + 1) :
    Origin (h ++ [b]) (h ++ [b]).length m p j c s := by
  have old := o.append (Nat.le_refl _) [b]
  have hci := o.order.2
  refine ⟨⟨o.order.1, ?_⟩, old.armed, old.note, old.kept, old.collected, ?_, ?_⟩
  · rw [List.length_append]
    omega
  · exact o.ahead.concat retries
  · rw [List.length_append, List.length_singleton]
    omega

/-- A poll takes the check off the record that was armed last, so no two polls collect it. -/
theorem collected_once {i' : Nat} {m' : Moment} {p' : Pending} {c' : Nat} {s' : Scheduled}
    (o : Origin h i m p j c s) (o' : Origin h i' m' p' j c' s') : s = s' ∧ c = c' := by
  obtain ⟨b, hb, after, -⟩ := o.armed
  obtain ⟨b', hb', after', -⟩ := o'.armed
  rw [hb] at hb'
  cases hb'
  rw [after] at after'
  cases after'
  have later : ∀ {i i' : Nat} {m m' : Moment} {p p' : Pending} {c c' : Nat},
      Origin h i m p j c s → Origin h i' m' p' j c' s → ¬ c < c' := by
    intro i i' m m' p p' c c' o o' hlt
    obtain ⟨d, hd, -, -, -, -, gone⟩ := o.collected
    have held := o'.kept c d o.order.1 hlt hd
    exact absurd (gone.symm.trans held) (by simp)
  have hle := later o o'
  have hge := later o' o
  exact ⟨rfl, by omega⟩

/-- A check once armed is delivered once at most. -/
theorem delivered_once {i' : Nat} {m' : Moment} {p' : Pending} {c' : Nat} {s' : Scheduled}
    (o : Origin h i m p j c s) (o' : Origin h i' m' p' j c' s') {b b' : Beat}
    (hb : h[i]? = some b) (task : b.task = .deliver (.stability p))
    (hb' : h[i']? = some b') (task' : b'.task = .deliver (.stability p')) : i = i' := by
  obtain ⟨-, rfl⟩ := o.collected_once o'
  have hle : ¬ i < i' := by
    intro hlt
    obtain ⟨reason, ht⟩ := (o'.ahead i b o.order.2 hlt hb).task
    rw [task] at ht
    cases ht
  have hge : ¬ i' < i := by
    intro hlt
    obtain ⟨reason, ht⟩ := (o.ahead i' b' o'.order.2 hlt hb').task
    rw [task'] at ht
    cases ht
  omega

/-- While a check is on record no other one is delivered, unless the same poll had collected that
one before the check was armed; then it comes right after. -/
theorem behind (o : Origin h i m p j c s) {k : Nat} {a : Beat} {s' : Scheduled}
    (ha : h[k]? = some a) (arms : a.Arms s') (hk : k < i)
    (held : Throughout h k i fun b => b.after.timers.record? .stabilityCheck = some s') :
    i = k + 1 := by
  have hci := o.order.2
  have near := o.near
  obtain ⟨d, hd, -, -, -, -, gone⟩ := o.collected
  -- Collected later than armed, the check on record would have been the one collected.
  rcases Nat.lt_trichotomy c k with hlt | rfl | hgt
  · omega
  · rw [ha] at hd
    cases hd
    exact absurd (gone.symm.trans arms.1) (by simp)
  · exact absurd (gone.symm.trans (held c d hgt hci hd)) (by simp)

end Origin

namespace Underway

variable {h : List Beat} {e : Engine} {m : Moment} {tray : List (TimerKey × TimerNote)}

/-- What is on record was armed at some beat and has been on record since. -/
theorem recorded (u : Underway h e m tray) {s : Scheduled}
    (hs : e.timers.record? .stabilityCheck = some s) :
    ∃ j b, h[j]? = some b ∧ b.Arms s ∧
      Throughout h j h.length fun b => b.after.timers.record? .stabilityCheck = some s := by
  induction u with
  | start => cases hs
  | @beat h b m tray tray' u takes ih =>
    by_cases before : b.engine.timers.record? .stabilityCheck = some s
    · obtain ⟨j, b', hj, arms, since⟩ := ih before
      obtain ⟨hlt, -⟩ := List.getElem?_eq_some_iff.mp hj
      exact ⟨j, b', by rwa [List.getElem?_append_left hlt], arms, since.concat hs⟩
    · refine ⟨h.length, b, List.getElem?_concat_length, ⟨hs, before⟩, ?_⟩
      intro k b' hj hk
      rw [List.length_append, List.length_singleton] at hk
      omega

/-- The notes still to be delivered are of different timers, each of its own kind. -/
theorem tray_fits (u : Underway h e m tray) :
    (tray.map (·.1)).Nodup ∧ ∀ entry ∈ tray, entry.1.Fits entry.2 := by
  induction u with
  | start => simp
  | @beat h b m tray tray' u takes ih =>
    cases takes with
    | event => simp
    | collect e m' =>
      refine ⟨Timers.nodup_fireDue u.sound.timers _, ?_⟩
      intro entry hm
      obtain ⟨s, hs, hn, -⟩ := (Timers.mem_fireDue u.sound.timers).mp hm
      rw [← hn]
      exact u.sound.fitting _ s hs
    | deliver e key note rest =>
      obtain ⟨nodup, fits⟩ := ih
      exact ⟨(List.nodup_cons.mp nodup).2, fun entry hm => fits entry (List.mem_cons_of_mem _ hm)⟩

theorem length_tray (u : Underway h e m tray) : tray.length ≤ 2 := by
  have fewer : (tray.map (·.1)).length ≤ TimerKey.all.length :=
    u.tray_fits.1.length_le_of_subset fun key _ => TimerKey.mem_all key
  simpa [TimerKey.all] using fewer

/-- Both timers wait for delivery only right after a poll, and then a validation has failed. -/
theorem failed_of_full (u : Underway h e m tray) (full : tray.length = 2) :
    0 < e.retry.failures := by
  have fits := u.tray_fits
  cases u with
  | start => cases full
  | beat u takes =>
    cases takes with
    | event => cases full
    | collect e m' =>
      have evaluates : .evaluate ∈ (e.timers.fireDue m'.clock).2.map (·.1) := by
        by_contra absent
        have within : (e.timers.fireDue m'.clock).2.map (·.1) ⊆ [.stabilityCheck] := by
          intro key hk
          cases key with
          | evaluate => exact absurd hk absent
          | stabilityCheck => simp
        have fewer := fits.1.length_le_of_subset within
        simp [full] at fewer
      obtain ⟨entry, hm, hkey⟩ := List.mem_map.mp evaluates
      obtain ⟨key, note⟩ := entry
      cases hkey
      obtain ⟨s, hs, -⟩ := (Timers.mem_fireDue u.sound.timers).mp hm
      refine u.sound.failed ?_
      rw [hs]
      simp
    | deliver e key note rest =>
      have most := u.length_tray
      rw [List.length_cons] at most
      omega

/-- A stability check still to be delivered was collected by the last poll, and what has been
delivered since are evaluations. -/
theorem inTray (u : Underway h e m tray) {p : Pending}
    (hm : (.stabilityCheck, .stability p) ∈ tray) :
    ∃ j c s, Origin h h.length m p j c s ∧ h.length + tray.length ≤ c + 3 := by
  induction u with
  | start => cases hm
  | @beat h b m tray tray' u takes ih =>
    cases takes with
    | event => cases hm
    | collect e m' =>
      obtain ⟨s, hs, note, due⟩ := (Timers.mem_fireDue u.sound.timers).mp hm
      obtain ⟨j, b', hj, arms, since⟩ := u.recorded hs
      obtain ⟨hlt, -⟩ := List.getElem?_eq_some_iff.mp hj
      have gone : (e.timers.fireDue m'.clock).1.record? .stabilityCheck = none := by
        refine (Timers.record?_fireDue u.sound.timers m'.clock _).trans ?_
        rw [hs]
        simp [Option.filter, due]
      have few := (u.beat (.collect e m')).length_tray
      have next : (h ++ [(⟨e, m', .collect⟩ : Beat)]).length = h.length + 1 := by simp
      refine ⟨j, h.length, s, ⟨⟨hlt, by omega⟩, ⟨b', ?_, arms⟩, note, ?_, ?_, ?_, by omega⟩,
        by omega⟩
      · rwa [List.getElem?_append_left hlt]
      · exact since.append (Nat.le_refl _) _
      · exact ⟨_, List.getElem?_concat_length, rfl, rfl, hs, due, gone⟩
      · intro k b hk hk'
        omega
    | deliver e key note rest =>
      obtain ⟨j, c, s, o, left⟩ := ih (List.mem_cons_of_mem _ hm)
      obtain ⟨nodup, fits⟩ := u.tray_fits
      -- The check is still in the tray, so what is delivered now is the other timer.
      have hne : key ≠ .stabilityCheck := by
        intro he
        subst he
        exact (List.nodup_cons.mp nodup).1 (List.mem_map.mpr ⟨_, hm, rfl⟩)
      have fit := fits _ List.mem_cons_self
      cases key with
      | stabilityCheck => exact absurd rfl hne
      | evaluate =>
        cases note with
        | stability q => cases fit
        | evaluate reason =>
          have more := List.length_pos_of_mem hm
          have most := u.length_tray
          rw [List.length_cons] at left most
          have failed := u.failed_of_full (by rw [List.length_cons]; omega)
          refine ⟨j, c, s, o.concat ⟨⟨reason, rfl⟩, rfl, failed⟩ (by omega), ?_⟩
          rw [List.length_append, List.length_singleton]
          omega

theorem origin (u : Underway h e m tray) {i : Nat} {b : Beat} (hb : h[i]? = some b) {p : Pending}
    (task : b.task = .deliver (.stability p)) : ∃ j c s, Origin h i b.moment p j c s := by
  obtain ⟨m', before, after, u', takes⟩ := u.at hb
  have hlen := length_take_of_getElem? hb
  cases takes with
  | event => cases task
  | collect => cases task
  | deliver e key note rest =>
    cases task
    have fit := u'.tray_fits.2 _ List.mem_cons_self
    cases key with
    | evaluate => cases fit
    | stabilityCheck =>
      obtain ⟨j, c, s, o, -⟩ := u'.inTray List.mem_cons_self
      rw [hlen] at o
      have whole := o.append (by omega) (h.drop i)
      rw [List.take_append_drop] at whole
      exact ⟨j, c, s, whole⟩

end Underway

namespace Run

theorem sound_at (r : Run) {i : Nat} {b : Beat} (hb : r.beats[i]? = some b) : b.course.Sound := by
  obtain ⟨m, u⟩ := r.underway
  obtain ⟨_, _, _, u', _⟩ := u.at hb
  exact u'.sound

theorem origin (r : Run) {i : Nat} {b : Beat} (hb : r.beats[i]? = some b) {p : Pending}
    (task : b.task = .deliver (.stability p)) : ∃ j c s, Origin r.beats i b.moment p j c s := by
  obtain ⟨m, u⟩ := r.underway
  exact u.origin hb task

end Run

end ModemSelect
