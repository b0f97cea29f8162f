import ModemSelect.Proofs.Following
import ModemSelect.Proofs.Journaling

namespace ModemSelect

/-- The news says what is known; of a signal only the level counts. -/
def Update.Repeats (known : Snapshot) : Update → Prop
  | .registration r => known.registration = r
  | .display d => known.display = d
  | .signal s => known.signal.level = s.level
  | .roamingData enabled => known.roamingData = enabled

/-- No modem is followed in the slot, or what is known of it is as the news says. -/
def SlotTable.IsOld (t : SlotTable) (id : Nat) (update : Update) : Prop :=
  ∀ m, t.modem? id = some m → update.Repeats m.known

/-- Internet over something else than the cells of a network or a satellite. Without a default
network there is none. -/
def DefaultNetwork.Bypasses (network : Option DefaultNetwork) : Prop :=
  ∃ n, network = some n ∧ n.hasInternet = true ∧
    ∃ t ∈ n.transports, t ≠ .cellular ∧ t ≠ .satellite

/-- The default network that the act tells of. -/
def Act.network? : Act → Option (Option DefaultNetwork)
  | .tell (.defaultNetworkChanged network) => some network
  | .tell _ | .poll => none

/-- The default network that the run told of last, none before the first. -/
def Run.lastNetwork (r : Run) : Option DefaultNetwork :=
  (r.acts.filterMap (·.2.network?)).getLast?.join

theorem Update.repeats_iff {update : Update} {known : Snapshot} :
    update.Repeats known ↔ known.knows update = true := by
  cases update <;> simp [Repeats, Snapshot.knows, Signal.same]

theorem DefaultNetwork.bypasses_iff {network : Option DefaultNetwork} :
    Bypasses network ↔ (network.map (·.bypassesModems)).getD false = true := by
  have foreign : ∀ t : Transport, (!t.isModem) = true ↔ t ≠ .cellular ∧ t ≠ .satellite := by
    intro t
    cases t <;> decide
  cases network with
  | none => simp [Bypasses]
  | some n => simp [Bypasses, bypassesModems, foreign]

namespace SlotTable

theorem isOld_learned (t : SlotTable) (id : Nat) (update : Update) :
    (t.learned id update).IsOld id update := by
  intro m shown
  rw [modem?_learned, if_pos rfl, Option.map_eq_some_iff] at shown
  obtain ⟨before, -, rfl⟩ := shown
  exact Update.repeats_iff.mpr (Snapshot.knows_learn before.known update)

theorem learn_of_isOld {t : SlotTable} {id : Nat} {update : Update} (old : t.IsOld id update)
    (inside : id < t.count) :
    t.learn id update = .error (.untracked id) ∨ t.learn id update = .ok (t, false) := by
  cases shown : t.modem? id with
  | none =>
    have untracked : t.get id = .error (.untracked id) := by rw [get, if_pos inside, shown]
    exact Or.inl (by rw [learn, untracked])
  | some m =>
    have knows := Update.repeats_iff.mp (old m shown)
    have learns : t.learn id update = .ok (⟨t.slots.set id (m.known.learn update)⟩, false) := by
      simp only [learn, get_eq_ok_iff.mpr shown, knows, Bool.not_true]
    have same := learn_of_known learns
    exact Or.inr (by rw [learns, same])

end SlotTable

namespace Engine

theorem handle_news_of_isOld {e : Engine} {id : Nat} {update : Update}
    (old : e.slots.IsOld id update) (inside : id < e.slots.count) (m : Moment) :
    e.handle m (.news id update) = { engine := e } := by
  change (e.hear m id update).complete m = _
  rcases SlotTable.learn_of_isOld old inside with learns | learns
  · simp [hear, learns, Uptake.complete]
  · simp [hear, learns, Uptake.complete]

theorem handle_news_of_outside {e : Engine} {id : Nat} (outside : e.slots.count ≤ id)
    (m : Moment) (update : Update) :
    e.handle m (.news id update) = {
      engine := { e with
        journal := e.journal.push
          ⟨m.clock.realtime, Message.newsDropped (.outside id e.slots.count)⟩ } } := by
  have learns : e.slots.learn id update = .error (.outside id e.slots.count) := by
    rw [SlotTable.learn, SlotTable.get, if_neg (Nat.not_lt_of_le outside)]
  change (e.hear m id update).complete m = _
  simp [hear, learns, Uptake.complete, note]

theorem slots_handle_news (e : Engine) (m : Moment) (id : Nat) (update : Update) :
    (e.handle m (.news id update)).engine.slots = e.slots.learned id update :=
  slots_handle e m (.news id update)

theorem handle_network_of_same {e : Engine} {network : Option DefaultNetwork}
    (same : DefaultNetwork.Bypasses network ↔ e.bypassed = true) (m : Moment) :
    e.handle m (.defaultNetworkChanged network) = { engine := e } := by
  have bypassed : (network.map (·.bypassesModems)).getD false = e.bypassed :=
    Bool.eq_iff_iff.mpr (DefaultNetwork.bypasses_iff.symm.trans same)
  change (e.setDefaultNetwork m network).complete m = _
  simp [setDefaultNetwork, bypassed, Uptake.complete]

theorem bypassed_act (e : Engine) (m : Moment) (a : Act) :
    (e.act m a).engine.bypassed =
      match a.network? with
      | some network => (network.map (·.bypassesModems)).getD false
      | none => e.bypassed := by
  cases a with
  | poll => exact congrArg Basis.bypassed (basis_poll e m)
  | tell event =>
    refine (congrArg Basis.bypassed (basis_handle e m event).1).trans ?_
    cases event <;> rfl

/-- Whatever else is done, the engine goes by the last default network it was told of. -/
theorem bypassed_afterActs (e : Engine) (acts : List (Moment × Act)) :
    (e.afterActs acts).bypassed =
      match (acts.filterMap (·.2.network?)).getLast? with
      | some network => (network.map (·.bypassesModems)).getD false
      | none => e.bypassed := by
  induction acts generalizing e with
  | nil => rfl
  | cons first rest ih =>
    obtain ⟨m, a⟩ := first
    rw [afterActs, ih, bypassed_act]
    cases told : a.network? with
    | none => simp [told]
    | some network =>
      simp only [List.filterMap_cons, told, List.getLast?_cons]
      cases (rest.filterMap (·.2.network?)).getLast? <;> rfl

end Engine

theorem Run.bypassed_iff (r : Run) :
    r.engine.bypassed = true ↔ DefaultNetwork.Bypasses r.lastNetwork := by
  rw [DefaultNetwork.bypasses_iff, engine, Engine.bypassed_afterActs, lastNetwork]
  cases (r.acts.filterMap (·.2.network?)).getLast? with
  | none => rfl
  | some network => rfl

/-- News that says what is known, or comes from a slot that is not followed, leaves the engine as it
is, so the same news twice is the same as once. A default network that bypasses the modems just as
the last one did leaves it so too, and the engine always knows whether the last one does, with
switching off as well. News from a slot outside makes one more entry in the journal, for which the
oldest goes if the journal is full, and does nothing else. -/
theorem old_news_changes_nothing (r : Run) (m : Moment) :
    (∀ id update, id < r.engine.slots.count → r.engine.slots.IsOld id update →
      r.engine.handle m (.news id update) = { engine := r.engine }) ∧
    (∀ id update, r.engine.slots.count ≤ id →
      let entry : Entry :=
        ⟨m.clock.realtime, Message.newsDropped (.outside id r.engine.slots.count)⟩
      r.engine.handle m (.news id update) = {
        engine := { r.engine with
          journal := {
            capacity := Journal.standardCapacity
            entries :=
              r.engine.journal.entries.rtake (Journal.standardCapacity - 1) ++ [entry] } } }) ∧
    (∀ id update m', id < r.engine.slots.count →
      let once := (r.engine.handle m (.news id update)).engine
      once.handle m' (.news id update) = { engine := once }) ∧
    (∀ network, (DefaultNetwork.Bypasses network ↔ DefaultNetwork.Bypasses r.lastNetwork) →
      r.engine.handle m (.defaultNetworkChanged network) = { engine := r.engine }) ∧
    (r.engine.bypassed = true ↔ DefaultNetwork.Bypasses r.lastNetwork) := by
  refine ⟨fun id update inside old => Engine.handle_news_of_isOld old inside m,
    fun id update outside => ?_, fun id update m' inside => ?_, fun network same => ?_,
    r.bypassed_iff⟩
  · rw [Engine.handle_news_of_outside outside, r.push_journal]
  · have learned := r.engine.slots_handle_news m id update
    refine Engine.handle_news_of_isOld ?_ ?_ m'
    · rw [learned]
      exact r.engine.slots.isOld_learned id update
    · rwa [learned, SlotTable.count_learned]
  · exact Engine.handle_network_of_same (same.trans r.bypassed_iff.symm) m

/-- A wireless network comes up while switching is off. -/
def Run.tethered : Run where
  settings := { availabilityThreshold := -1 }
  count := 2
  phones := .sample .home [0, 1]
  acts := [
    (⟨⟨0, 0⟩, .sample .home [0, 1]⟩, .tell (.defaultNetworkChanged (some ⟨[.wifi], true⟩))),
    (⟨⟨500, 500⟩, .sample .home [0, 1]⟩, .tell (.news 0 (.roamingData false)))]

/-- A cable beside the cells is no news then, and neither is a measurement at the same level. What
is heard of a third slot makes the second entry of the journal. -/
theorem old_news_changes_nothing_tethered :
    let e := Run.tethered.engine
    let m : Moment := ⟨⟨600, 900⟩, .sample .home [0, 1]⟩
    let cable : DefaultNetwork := ⟨[.cellular, .ethernet], true⟩
    let roams := (e.handle m (.news 0 (.roamingData true))).engine
    e.bypassed = true ∧
      e.handle m (.defaultNetworkChanged (some cable)) = { engine := e } ∧
      e.handle m (.news 1 (.signal (Signal.ofRsrp (-90)))) = { engine := e } ∧
      roams.handle m (.news 0 (.roamingData true)) = { engine := roams } ∧
      e.handle m (.news 2 (.roamingData true)) = {
        engine := { e with
          journal := {
            capacity := 128
            entries := [⟨0, "default network on non-cellular: true"⟩, ⟨900,
              "signal update dropped: candidate 2 is outside the 2 modem slots"⟩] } } } := by
  intro e m cable roams
  have last : DefaultNetwork.Bypasses Run.tethered.lastNetwork :=
    ⟨⟨[.wifi], true⟩, rfl, rfl, .wifi, by decide, by decide, by decide⟩
  have beside : DefaultNetwork.Bypasses (some cable) :=
    ⟨_, rfl, rfl, .ethernet, by decide, by decide, by decide⟩
  have count : e.slots.count = 2 := by decide +kernel
  have level : (e.slots.modem? 1).map (·.known.signal.level) = some 4 := by decide +kernel
  have old : e.slots.IsOld 1 (.signal (Signal.ofRsrp (-90))) := by
    intro modem shown
    rw [shown] at level
    exact Option.some.inj level
  obtain ⟨known, outside, twice, network, bypassed⟩ := old_news_changes_nothing Run.tethered m
  refine ⟨bypassed.mpr last, network _ (iff_of_true beside last),
    known _ _ (by rw [count]; decide) old, twice _ _ m (by rw [count]; decide), ?_⟩
  have entries : e.journal.entries = [⟨0, "default network on non-cellular: true"⟩] := by
    decide +kernel
  have noted := outside 2 (.roamingData true) (Nat.le_of_eq count)
  rw [count, entries] at noted
  exact noted

end ModemSelect
