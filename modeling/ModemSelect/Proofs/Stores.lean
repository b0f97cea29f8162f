import Mathlib.Data.List.Induction
import ModemSelect.Proofs.AlarmsView
import ModemSelect.Proofs.QueueView

namespace ModemSelect

/-- What can be asked of a store of deadlines. -/
inductive StoreAct where
  | arm (key : TimerKey) (deadline : Nat)
  | disarm (key : TimerKey)
  | takeDue (now : Nat)

/-- To arm has no answer; to disarm tells whether there was anything to disarm. -/
inductive StoreAnswer where
  | armed
  | disarmed (found : Bool)
  | taken (keys : List TimerKey)
  deriving DecidableEq

namespace Queue

def act (q : Queue) : StoreAct → Queue
  | .arm key d => q.arm key d
  | .disarm key => (q.disarm key).1
  | .takeDue now => q.dropDue now

def answer (q : Queue) : StoreAct → StoreAnswer
  | .arm .. => .armed
  | .disarm key => .disarmed (q.disarm key).2
  | .takeDue now => .taken (q.due now)

/-- A new queue after the given acts. -/
def after (acts : List StoreAct) : Queue := acts.foldl act {}

end Queue

namespace Alarms

def act (a : Alarms) : StoreAct → Alarms
  | .arm key d => a.arm key d
  | .disarm key => (a.disarm key).1
  | .takeDue now => a.dropDue now

def answer (a : Alarms) : StoreAct → StoreAnswer
  | .arm .. => .armed
  | .disarm key => .disarmed (a.disarm key).2
  | .takeDue now => .taken (a.due now)

/-- New alarms after the given acts. -/
def after (acts : List StoreAct) : Alarms := acts.foldl act {}

end Alarms

namespace StoreAct

def arms (key : TimerKey) : StoreAct → Bool
  | .arm k _ => k == key
  | .disarm _ | .takeDue _ => false

/-- The act ends an arming of the timer for the deadline: the timer is armed anew or disarmed, or
its deadline has come. -/
def Ends (key : TimerKey) (d : Nat) : StoreAct → Prop
  | .arm k _ => k = key
  | .disarm k => k = key
  | .takeDue now => d ≤ now

/-- The timer was armed for the deadline, and nothing has ended that since. -/
def Stands (acts : List StoreAct) (key : TimerKey) (d : Nat) : Prop :=
  ∃ before since, acts = before ++ .arm key d :: since ∧ ∀ a ∈ since, ¬ a.Ends key d

/-- How many acts come before the first one that arms the timer. -/
def firstArming (acts : List StoreAct) (key : TimerKey) : Nat := acts.findIdx (arms key)

theorem stands_concat {acts : List StoreAct} {a : StoreAct} {key : TimerKey} {d : Nat} :
    Stands (acts ++ [a]) key d ↔ a = .arm key d ∨ Stands acts key d ∧ ¬ a.Ends key d := by
  constructor
  · intro stands
    obtain ⟨before, since, split, kept⟩ := stands
    rcases List.eq_nil_or_concat since with rfl | ⟨since, last, rfl⟩
    · exact Or.inl (List.singleton_inj.mp (List.append_inj_right' split rfl))
    · rw [List.concat_eq_append, ← List.cons_append, ← List.append_assoc] at split
      obtain ⟨rfl, same⟩ := List.append_inj' split rfl
      cases List.singleton_inj.mp same
      refine Or.inr ⟨⟨before, since, rfl, fun b hb => kept b ?_⟩, kept _ ?_⟩
      · simp [hb]
      · simp
  · intro cases
    rcases cases with rfl | ⟨⟨before, since, rfl, kept⟩, lasts⟩
    · exact ⟨acts, [], rfl, by simp⟩
    · refine ⟨before, since ++ [a], by simp, fun b hb => ?_⟩
      rcases List.mem_append.mp hb with hb | hb
      · exact kept b hb
      · cases List.mem_singleton.mp hb
        exact lasts

theorem not_stands_nil (key : TimerKey) (d : Nat) : ¬ Stands [] key d := by
  intro stands
  obtain ⟨before, since, split, -⟩ := stands
  simp at split

/-- What an act makes of the deadline that is held for a timer. -/
def update (key : TimerKey) (held : Option Nat) : StoreAct → Option Nat
  | .arm k d => if key = k then some d else held
  | .disarm k => if key = k then none else held
  | .takeDue now => held.filter (now < ·)

theorem update_eq_some_iff {a : StoreAct} {key : TimerKey} {held : Option Nat} {d : Nat} :
    a.update key held = some d ↔ a = .arm key d ∨ held = some d ∧ ¬ a.Ends key d := by
  cases a with
  | arm k e =>
    by_cases he : key = k
    · simp [update, Ends, he]
    · simp [update, Ends, he, Ne.symm he]
  | disarm k =>
    by_cases he : key = k
    · simp [update, Ends, he]
    · simp [update, Ends, he, Ne.symm he]
  | takeDue now => simp [update, Ends, Option.filter_eq_some_iff]

section FirstArming

variable {acts : List StoreAct} {key : TimerKey}

theorem firstArming_concat_lt_iff {a : StoreAct} :
    firstArming (acts ++ [a]) key < (acts ++ [a]).length ↔
      firstArming acts key < acts.length ∨ a.arms key = true := by
  rw [firstArming, firstArming, List.findIdx_lt_length, List.findIdx_lt_length]
  simp [or_and_right, exists_or]

theorem firstArming_concat_of_lt (h : firstArming acts key < acts.length) (a : StoreAct) :
    firstArming (acts ++ [a]) key = firstArming acts key :=
  List.findIdx_append.trans (if_pos h)

theorem firstArming_concat_arm (h : ¬ firstArming acts key < acts.length) (d : Nat) :
    firstArming (acts ++ [.arm key d]) key = acts.length := by
  refine List.findIdx_append.trans ((if_neg h).trans ?_)
  simp [arms]

end FirstArming

end StoreAct

open StoreAct

namespace Queue

theorem after_concat (acts : List StoreAct) (a : StoreAct) :
    after (acts ++ [a]) = (after acts).act a :=
  List.foldl_append

theorem deadline?_act (q : Queue) (a : StoreAct) (key : TimerKey) :
    (q.act a).deadline? key = a.update key (q.deadline? key) := by
  cases a with
  | arm k d => exact deadline?_arm q k key d
  | disarm k => exact deadline?_disarm q k key
  | takeDue now => exact deadline?_dropDue q now key

theorem deadline?_after {acts : List StoreAct} {key : TimerKey} {d : Nat} :
    (after acts).deadline? key = some d ↔ Stands acts key d := by
  induction acts using List.reverseRecOn with
  | nil => cases key <;> simp [after, deadline?, PerTimer.get, not_stands_nil]
  | append_singleton acts a ih =>
    rw [after_concat, deadline?_act, update_eq_some_iff, ih, stands_concat]

end Queue

namespace Alarms

theorem after_concat (acts : List StoreAct) (a : StoreAct) :
    after (acts ++ [a]) = (after acts).act a :=
  List.foldl_append

theorem wellFormed_act {a : Alarms} (h : a.WellFormed) (x : StoreAct) : (a.act x).WellFormed := by
  cases x with
  | arm key d => exact wellFormed_arm h key d
  | disarm key => exact wellFormed_disarm h key
  | takeDue now => exact wellFormed_dropDue h now

theorem wellFormed_after (acts : List StoreAct) : (after acts).WellFormed := by
  induction acts using List.reverseRecOn with
  | nil => exact wellFormed_empty
  | append_singleton acts x ih =>
    rw [after_concat]
    exact wellFormed_act ih x

theorem deadline?_act {a : Alarms} (h : a.WellFormed) (x : StoreAct) (key : TimerKey) :
    (a.act x).deadline? key = x.update key (a.deadline? key) := by
  cases x with
  | arm k d => exact deadline?_arm h k key d
  | disarm k => exact deadline?_disarm h k key
  | takeDue now => exact deadline?_dropDue h now key

theorem deadline?_after {acts : List StoreAct} {key : TimerKey} {d : Nat} :
    (after acts).deadline? key = some d ↔ Stands acts key d := by
  induction acts using List.reverseRecOn with
  | nil => simp [after, deadline?, listener?, not_stands_nil]
  | append_singleton acts x ih =>
    rw [after_concat, deadline?_act (wellFormed_after acts), update_eq_some_iff, ih, stands_concat]

/-- Only the first arming of a timer brings a listener, which comes last and stays for good. -/
theorem listeners_act (a : Alarms) (x : StoreAct) :
    (a.act x).listeners = a.listeners ∧ (∀ key, x.arms key = true → key ∈ a.listeners) ∨
      ∃ key d, x = .arm key d ∧ key ∉ a.listeners ∧
        (a.act x).listeners = a.listeners ++ [key] := by
  cases x with
  | arm key d =>
    cases hl : a.listener? key with
    | some l =>
      refine Or.inl ⟨by simp [act, arm, hl, unset], fun k arms => ?_⟩
      rw [← eq_of_beq arms]
      exact List.mem_of_getElem? (getElem?_of_listener? hl)
    | none => exact Or.inr ⟨key, d, rfl, not_mem_listeners hl, by simp [act, arm, hl]⟩
  | disarm key =>
    refine Or.inl ⟨?_, fun k arms => by cases arms⟩
    simp only [act, disarm]
    split <;> rfl
  | takeDue now => exact Or.inl ⟨rfl, fun k arms => by cases arms⟩

/-- The listeners are those of the timers ever armed, in the order of their first arming. -/
theorem listeners_after (acts : List StoreAct) :
    (∀ key, key ∈ (after acts).listeners ↔ firstArming acts key < acts.length) ∧
      (after acts).listeners.Pairwise fun k k' => firstArming acts k < firstArming acts k' := by
  induction acts using List.reverseRecOn with
  | nil => exact ⟨by simp [after], List.Pairwise.nil⟩
  | append_singleton acts x ih =>
    obtain ⟨members, sorted⟩ := ih
    have older : (after acts).listeners.Pairwise fun k k' =>
        firstArming (acts ++ [x]) k < firstArming (acts ++ [x]) k' := by
      refine sorted.imp_of_mem fun {k k'} hk hk' lt => ?_
      rwa [firstArming_concat_of_lt ((members k).mp hk),
        firstArming_concat_of_lt ((members k').mp hk')]
    rw [after_concat]
    rcases listeners_act (after acts) x with ⟨same, armed⟩ | ⟨key, d, rfl, new, hired⟩
    · rw [same]
      refine ⟨fun key => ?_, older⟩
      rw [members, firstArming_concat_lt_iff, ← members]
      exact ⟨Or.inl, fun h => h.elim id (armed key)⟩
    · have first := firstArming_concat_arm (fun lt => new ((members key).mpr lt)) d
      rw [hired]
      refine ⟨fun k => ?_, List.pairwise_append.mpr ⟨older, List.pairwise_singleton _ _, ?_⟩⟩
      · rw [List.mem_append, List.mem_singleton, members, firstArming_concat_lt_iff, arms,
          beq_iff_eq]
        exact or_congr_right eq_comm
      · intro k hk k' hk'
        cases List.mem_singleton.mp hk'
        rw [first, firstArming_concat_of_lt ((members k).mp hk)]
        exact (members k).mp hk

end Alarms

/-- The place of the timer in the order of the timers. -/
def TimerKey.rank (key : TimerKey) : Nat := TimerKey.all.idxOf key

namespace Queue

/-- The deadlines that have come, in the order of the timers. -/
def dueEntries (q : Queue) (now : Nat) : List (Nat × TimerKey) :=
  (TimerKey.all.filterMap fun key => (q.deadline? key).map fun d => (d, key)).filter fun e =>
    e.1 ≤ now

theorem deadline?_of_dueEntries {q : Queue} {now : Nat} {e : Nat × TimerKey}
    (he : e ∈ q.dueEntries now) : q.deadline? e.2 = some e.1 := by
  obtain ⟨key, -, he⟩ := List.mem_filterMap.mp (List.mem_filter.mp he).1
  obtain ⟨d, hd, rfl⟩ := Option.map_eq_some_iff.mp he
  exact hd

theorem dueEntries_sorted (q : Queue) (now : Nat) :
    (q.dueEntries now).Pairwise fun e e' => e.2.rank < e'.2.rank := by
  have ranks : TimerKey.all.Pairwise fun k k' => k.rank < k'.rank := by decide
  refine (List.pairwise_filterMap.mpr (ranks.imp fun {k k'} less e he e' he' => ?_)).filter _
  obtain ⟨d, -, rfl⟩ := Option.map_eq_some_iff.mp he
  obtain ⟨d', -, rfl⟩ := Option.map_eq_some_iff.mp he'
  exact less

theorem sorted_due (q : Queue) (now : Nat) :
    (q.due now).Pairwise fun k k' => ∀ d d' : Nat, q.deadline? k = some d →
      q.deadline? k' = some d' → d < d' ∨ d = d' ∧ k.rank < k'.rank := by
  have sorted : ((q.dueEntries now).mergeSort fun a b => a.1 ≤ b.1).Pairwise fun e e' =>
      e.1 ≤ e'.1 ∧ (e'.1 ≤ e.1 → e.2.rank < e'.2.rank) := by
    refine (pairwise_mergeSort_of_pairwise (fun x y z h h' => ?_) (fun x y => ?_)
      (q.dueEntries_sorted now)).imp fun h => ?_
    · exact decide_eq_true (Nat.le_trans (of_decide_eq_true h) (of_decide_eq_true h'))
    · simpa using Nat.le_total x.1 y.1
    · simpa using h
  refine List.pairwise_map.mpr (sorted.imp_of_mem fun {e e'} he he' order d d' hd hd' => ?_)
  obtain ⟨hle, tie⟩ := order
  rw [deadline?_of_dueEntries (List.mem_mergeSort.mp he)] at hd
  rw [deadline?_of_dueEntries (List.mem_mergeSort.mp he')] at hd'
  cases hd
  cases hd'
  rcases Nat.lt_or_eq_of_le hle with less | same
  · exact Or.inl less
  · exact Or.inr ⟨same, tie (Nat.le_of_eq same.symm)⟩

end Queue

namespace Alarms

theorem sorted_due {a : Alarms} (h : a.WellFormed) (now : Nat) :
    (a.due now).Pairwise fun k k' => ∀ d d' : Nat, a.deadline? k = some d →
      a.deadline? k' = some d' → d < d' ∨ d = d' ∧
        ∃ i j : Nat, i < j ∧ a.listeners[i]? = some k ∧ a.listeners[j]? = some k' := by
  have sorted : (a.dueAlarms now).Pairwise fun x y =>
      x.deadline < y.deadline ∨ x.deadline = y.deadline ∧ x.listener ≤ y.listener := by
    refine (List.pairwise_mergeSort (fun x y z => ?_) (fun x y => ?_) _).imp fun {x y} h => ?_
    · simp only [Bool.or_eq_true, Bool.and_eq_true, decide_eq_true_eq, beq_iff_eq]
      omega
    · simp only [Bool.or_eq_true, Bool.and_eq_true, decide_eq_true_eq, beq_iff_eq]
      omega
    · simpa using h
  refine List.pairwise_filterMap.mpr ?_
  refine (sorted.and (List.pairwise_map.mp (nodup_dueAlarms h now))).imp_of_mem ?_
  intro x y hx hy order k hk k' hk' d d' hd hd'
  obtain ⟨hle, hne⟩ := order
  have own : ∀ {x : Alarm} {k : TimerKey}, x ∈ a.dueAlarms now → a.listeners[x.listener]? = some k →
      a.deadline? k = some x.deadline := fun hx hk =>
    (deadline?_eq_some h).mpr ⟨_, hk, (List.mem_filter.mp (List.mem_mergeSort.mp hx)).1⟩
  rw [own hx hk] at hd
  rw [own hy hk'] at hd'
  cases hd
  cases hd'
  rcases hle with less | ⟨same, before⟩
  · exact Or.inl less
  · exact Or.inr ⟨same, x.listener, y.listener, by omega, hk, hk'⟩

/-- There are as many alarms outstanding as timers armed. -/
theorem length_outstanding {a : Alarms} (h : a.WellFormed) :
    a.outstanding.length = (TimerKey.all.filter a.isArmed).length := by
  have owners : (a.outstanding.filterMap fun x => a.listeners[x.listener]?).length =
      a.outstanding.length :=
    List.filterMap_length_eq_length.mpr fun x hx => by simp [h.owned x hx]
  rw [← owners]
  refine List.Perm.length_eq ?_
  refine (List.perm_ext_iff_of_nodup (nodup_keys h h.single) ?_).mpr fun key => ?_
  · exact (by decide : TimerKey.all.Nodup).filter _
  · rw [List.mem_filterMap, List.mem_filter, isArmed, Option.isSome_iff_exists]
    simp only [deadline?_eq_some h, TimerKey.mem_all, true_and]
    constructor
    · intro owner
      obtain ⟨x, hx, hk⟩ := owner
      exact ⟨x.deadline, x.listener, hk, hx⟩
    · intro armed
      obtain ⟨d, l, hk, hx⟩ := armed
      exact ⟨⟨l, d⟩, hx, hk⟩

end Alarms

/-- The keys are those whose deadline has come, each once and in the order of their deadlines; among
those of one deadline the rank decides. -/
structure Taken (acts : List StoreAct) (now : Nat) (rank : TimerKey → Nat)
    (keys : List TimerKey) : Prop where
  nodup : keys.Nodup
  mem : ∀ key, key ∈ keys ↔ ∃ d, Stands acts key d ∧ d ≤ now
  sorted : keys.Pairwise fun k k' => ∀ d d', Stands acts k d → Stands acts k' d' →
    d < d' ∨ d = d' ∧ rank k < rank k'

theorem Queue.taken_after (acts : List StoreAct) (now : Nat) :
    Taken acts now TimerKey.rank ((after acts).due now) where
  nodup := nodup_due _ now
  mem key := by simp only [mem_due, deadline?_after]
  sorted := by simpa only [deadline?_after] using (after acts).sorted_due now

theorem Alarms.taken_after (acts : List StoreAct) (now : Nat) :
    Taken acts now (firstArming acts) ((after acts).due now) where
  nodup := nodup_due (wellFormed_after acts) now
  mem key := by simp only [mem_due (wellFormed_after acts), deadline?_after]
  sorted := by
    refine ((after acts).sorted_due (wellFormed_after acts) now).imp ?_
    intro k k' order d d' hd hd'
    rcases order d d' (deadline?_after.mpr hd) (deadline?_after.mpr hd') with
      less | ⟨same, i, j, hij, hi, hj⟩
    · exact Or.inl less
    · obtain ⟨hli, rfl⟩ := List.getElem?_eq_some_iff.mp hi
      obtain ⟨hlj, rfl⟩ := List.getElem?_eq_some_iff.mp hj
      exact Or.inr ⟨same, List.pairwise_iff_getElem.mp (listeners_after acts).2 i j hli hlj hij⟩

/-- Two lists of the same taken keys differ in order only within one deadline. -/
theorem Taken.alike {acts : List StoreAct} {now : Nat} {rank rank' : TimerKey → Nat}
    {keys keys' : List TimerKey} (h : Taken acts now rank keys) (h' : Taken acts now rank' keys')
    {k k' : TimerKey} (before : [k, k'].Sublist keys) (after : [k', k].Sublist keys') :
    ∃ d, Stands acts k d ∧ Stands acts k' d := by
  obtain ⟨d, hd, -⟩ := (h.mem k).mp (before.subset (by simp))
  obtain ⟨d', hd', -⟩ := (h.mem k').mp (before.subset (by simp))
  have first := List.pairwise_iff_forall_sublist.mp h.sorted before d d' hd hd'
  have second := List.pairwise_iff_forall_sublist.mp h'.sorted after d' d hd' hd
  have same : d = d' := by omega
  exact ⟨d, hd, same ▸ hd'⟩

/-- New alarms and a new queue of which the same is asked are the same store of deadlines. They
answer alike, but for the order of the taken timers of one deadline: the queue has the order of the
timers and the alarms that in which the timers were first armed. -/
theorem stores_agree (acts : List StoreAct) :
    let q := Queue.after acts
    let a := Alarms.after acts
    (∀ key, q.answer (.disarm key) = a.answer (.disarm key) ∧ q.isArmed key = a.isArmed key ∧
      (a.isArmed key = true ↔ ∃ d, Stands acts key d)) ∧
      q.nextDeadline = a.nextDeadline ∧
      (∀ d, a.nextDeadline = some d ↔
        (∃ key, Stands acts key d) ∧ ∀ key d', Stands acts key d' → d ≤ d') ∧
      (∀ now, ∃ keys keys', q.answer (.takeDue now) = .taken keys ∧
        a.answer (.takeDue now) = .taken keys' ∧ keys.Perm keys' ∧
        Taken acts now TimerKey.rank keys ∧ Taken acts now (firstArming acts) keys' ∧
        ∀ k k', [k, k'].Sublist keys → [k', k].Sublist keys' →
          ∃ d, Stands acts k d ∧ Stands acts k' d) ∧
      a.outstanding.length = (TimerKey.all.filter a.isArmed).length := by
  intro q a
  have wf : a.WellFormed := Alarms.wellFormed_after acts
  have armed : ∀ key, q.isArmed key = a.isArmed key := fun key => by
    refine congrArg Option.isSome (Option.ext fun d => ?_)
    exact Queue.deadline?_after.trans Alarms.deadline?_after.symm
  have earliest : ∀ d, a.nextDeadline = some d ↔
      (∃ key, Stands acts key d) ∧ ∀ key d', Stands acts key d' → d ≤ d' := fun d => by
    simp only [Alarms.nextDeadline_eq_some_iff wf, a, Alarms.deadline?_after]
  refine ⟨fun key => ⟨?_, armed key, ?_⟩, ?_, earliest, fun now => ?_,
    Alarms.length_outstanding wf⟩
  · rw [Queue.answer, Alarms.answer, Queue.snd_disarm, Alarms.snd_disarm, armed]
  · simp only [Alarms.isArmed, Option.isSome_iff_exists, a, Alarms.deadline?_after]
  · refine Option.ext fun d => ?_
    simp only [earliest, Queue.nextDeadline_eq_some_iff, q, Queue.deadline?_after]
  · have taken := Queue.taken_after acts now
    have taken' := Alarms.taken_after acts now
    refine ⟨_, _, rfl, rfl, ?_, taken, taken', fun k k' => taken.alike taken'⟩
    exact (List.perm_ext_iff_of_nodup taken.nodup taken'.nodup).mpr fun key =>
      (taken.mem key).trans (taken'.mem key).symm

/-- Two timers of one deadline, of which the later one was armed first. -/
example :
    let acts : List StoreAct := [.arm .stabilityCheck 5, .arm .evaluate 5]
    (Queue.after acts).due 5 = [.evaluate, .stabilityCheck] ∧
      (Alarms.after acts).due 5 = [.stabilityCheck, .evaluate] := by
  cbv

end ModemSelect
