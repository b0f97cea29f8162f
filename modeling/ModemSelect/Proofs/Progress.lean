import ModemSelect.Proofs.Lists
import ModemSelect.Proofs.Run

namespace ModemSelect

/-- What the next beat is, after the given moment and with the given notes still to be delivered,
and the notes that it leaves. Notes are delivered at the moment of the poll that collected them,
and until then nothing else is done. -/
inductive Takes (m : Moment) : List (TimerKey × TimerNote) → Beat →
    List (TimerKey × TimerNote) → Prop where
  | event (e : Engine) (m' : Moment) (event : Event) : Takes m [] ⟨e, m', .event event⟩ []
  | collect (e : Engine) (m' : Moment) :
      Takes m [] ⟨e, m', .collect⟩ (e.timers.fireDue m'.clock).2
  | deliver (e : Engine) (key : TimerKey) (note : TimerNote)
      (rest : List (TimerKey × TimerNote)) :
      Takes m ((key, note) :: rest) ⟨e, m, .deliver note⟩ rest

/-- The beats from a start up to a point of a run, with the engine, the last moment and the notes
still to be delivered there. -/
inductive Underway : List Beat → Engine → Moment → List (TimerKey × TimerNote) → Prop where
  | start (settings : Settings) (scorer : Option Scorer) (count : Nat) (phones : Readings)
      (m : Moment) : Underway [] (Engine.start settings scorer count phones).engine m []
  | beat {h : List Beat} {b : Beat} {m : Moment} {tray tray' : List (TimerKey × TimerNote)} :
      Underway h b.engine m tray → Takes m tray b tray' →
        Underway (h ++ [b]) b.after b.moment tray'

namespace Underway

variable {h : List Beat} {e : Engine} {m : Moment} {tray : List (TimerKey × TimerNote)}

theorem deliveries (u : Underway h e m tray) :
    Underway (h ++ e.deliveries m tray)
      (tray.foldl (fun e note => (e.deliver m note.2).engine) e) m [] := by
  induction tray generalizing h e with
  | nil => simpa [Engine.deliveries] using u
  | cons note rest ih =>
    obtain ⟨key, note⟩ := note
    have next := ih (u.beat (b := ⟨e, m, .deliver note⟩) (.deliver e key note rest))
    rwa [List.append_assoc] at next

theorem act (u : Underway h e m []) (m' : Moment) (a : Act) :
    Underway (h ++ e.beatsOf m' a) (e.act m' a).engine m' [] := by
  cases a with
  | tell event => exact u.beat (b := ⟨e, m', .event event⟩) (.event e m' event)
  | poll =>
    have collected := u.beat (b := ⟨e, m', .collect⟩) (.collect e m')
    have polled := collected.deliveries
    rw [List.append_assoc] at polled
    change Underway _ (e.poll m').1.engine m' []
    rw [e.poll_engine]
    exact polled

theorem acts (u : Underway h e m []) (acts : List (Moment × Act)) :
    ∃ m', Underway (h ++ e.beats acts) (e.afterActs acts) m' [] := by
  induction acts generalizing h e m with
  | nil => exact ⟨m, by simpa [Engine.beats, Engine.afterActs] using u⟩
  | cons first rest ih =>
    obtain ⟨m', a⟩ := first
    obtain ⟨last, next⟩ := ih (u.act m' a)
    rw [List.append_assoc] at next
    exact ⟨last, next⟩

end Underway

theorem Run.underway (r : Run) : ∃ m, Underway r.beats r.engine m [] := by
  obtain ⟨m, u⟩ := (Underway.start r.settings r.scorer r.count r.phones
    ⟨{}, r.phones⟩).acts r.acts
  rw [List.nil_append] at u
  exact ⟨m, u⟩

/-- Each beat of a run is the next one after those before it. -/
theorem Underway.at {h : List Beat} {e : Engine} {m : Moment}
    {tray : List (TimerKey × TimerNote)} (u : Underway h e m tray) {i : Nat} {b : Beat}
    (hb : h[i]? = some b) :
    ∃ m' before after, Underway (h.take i) b.engine m' before ∧ Takes m' before b after := by
  induction u with
  | start => simp at hb
  | @beat h b' m before after u takes ih =>
    rcases getElem?_concat_cases hb with hb | ⟨rfl, rfl⟩
    · obtain ⟨hi, -⟩ := List.getElem?_eq_some_iff.mp hb
      rw [List.take_append_of_le_length (by omega)]
      exact ih hb
    · rw [List.take_left]
      exact ⟨m, before, after, u, takes⟩

theorem Underway.last {h : List Beat} {e : Engine} {m : Moment}
    {tray : List (TimerKey × TimerNote)} (u : Underway h e m tray) {i : Nat} {a : Beat}
    (ha : h[i]? = some a) (hi : i + 1 = h.length) : e = a.after := by
  cases u with
  | start => cases ha
  | beat u takes =>
    rw [List.length_append, List.length_singleton] at hi
    have he : i = _ := Nat.succ.inj hi
    rw [he, List.getElem?_concat_length] at ha
    cases ha
    rfl

/-- Each beat starts from the engine that the one before it left. -/
theorem Underway.chain {h : List Beat} {e : Engine} {m : Moment}
    {tray : List (TimerKey × TimerNote)} (u : Underway h e m tray) {i : Nat} {a b : Beat}
    (ha : h[i]? = some a) (hb : h[i + 1]? = some b) : b.engine = a.after := by
  obtain ⟨m', before, after, u', -⟩ := u.at hb
  refine u'.last (i := i) ?_ (length_take_of_getElem? hb).symm
  rwa [List.getElem?_take_of_lt (by omega)]

/-- All beats strictly between two points are of one kind. -/
def Throughout (h : List Beat) (j i : Nat) (P : Beat → Prop) : Prop :=
  ∀ k b, j < k → k < i → h[k]? = some b → P b

namespace Throughout

variable {h : List Beat} {j i : Nat} {P : Beat → Prop}

theorem mono {j' i' : Nat} (t : Throughout h j i P) (hj : j ≤ j') (hi : i' ≤ i) :
    Throughout h j' i' P :=
  fun k b hjk hki hb => t k b (by omega) (by omega) hb

theorem take {n : Nat} (hn : i ≤ n) : Throughout (h.take n) j i P ↔ Throughout h j i P := by
  constructor
  · intro t k b hj hk hb
    exact t k b hj hk (by rwa [List.getElem?_take_of_lt (by omega)])
  · intro t k b hj hk hb
    rw [List.getElem?_take_of_lt (by omega)] at hb
    exact t k b hj hk hb

theorem adjacent : Throughout h j (j + 1) P := by
  intro k b hj hk
  omega

theorem join {k : Nat} {b : Beat} (before : Throughout h k j P) (hb : h[j]? = some b) (pb : P b)
    (since : Throughout h j i P) : Throughout h k i P := by
  intro l d hk hi hd
  rcases Nat.lt_trichotomy l j with hlt | rfl | hgt
  · exact before l d hk hlt hd
  · rw [hb] at hd
    cases hd
    exact pb
  · exact since l d hgt hi hd

theorem concat (t : Throughout h j h.length P) {b : Beat} (hb : P b) :
    Throughout (h ++ [b]) j (h ++ [b]).length P := by
  intro k b' hj _ hk
  rcases getElem?_concat_cases hk with hk | ⟨-, rfl⟩
  · obtain ⟨hlt, -⟩ := List.getElem?_eq_some_iff.mp hk
    exact t k b' hj hlt hk
  · exact hb

theorem append (t : Throughout h j i P) (hi : i ≤ h.length) (rest : List Beat) :
    Throughout (h ++ rest) j i P := by
  intro k b hj hk hb
  rw [List.getElem?_append_left (by omega)] at hb
  exact t k b hj hk hb

end Throughout

end ModemSelect
