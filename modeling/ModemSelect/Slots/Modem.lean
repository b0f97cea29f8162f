import ModemSelect.Radio.Service
import ModemSelect.Settings.Basic

namespace ModemSelect

/-- How usable a slot is for carrying data. -/
inductive Usability where
  | home
  | roamingEnabled
  | nonTerrestrial
  | notUsable
  deriving DecidableEq

instance : Named Usability where
  all := [.home, .roamingEnabled, .nonTerrestrial, .notUsable]
  name
    | .home => "home"
    | .roamingEnabled => "roaming_enabled"
    | .nonTerrestrial => "non_terrestrial"
    | .notUsable => "not_usable"

/-- Home service ranks first; satellite service ranks with enabled roaming. -/
def Usability.rank : Usability → Nat
  | .home => 2
  | .roamingEnabled | .nonTerrestrial => 1
  | .notUsable => 0

def Usability.isUsable (u : Usability) : Bool := 0 < u.rank

/-- All that is followed of one modem. -/
structure Snapshot where
  registration : Registration := {}
  display : Display := {}
  signal : Signal := {}
  roamingData : Bool := false

inductive Update where
  | registration (r : Registration)
  | display (d : Display)
  | signal (s : Signal)
  | roamingData (enabled : Bool)

/-- News that can move nothing but the score. -/
def Update.onlyScore : Update → Bool
  | .display _ | .signal _ => true
  | .registration _ | .roamingData _ => false

namespace Snapshot

/-- The news says what is already known; signals are compared by their level. -/
def knows (s : Snapshot) : Update → Bool
  | .registration r => s.registration == r
  | .display d => s.display == d
  | .signal x => s.signal.same x
  | .roamingData enabled => s.roamingData == enabled

/-- Takes in the news; what is already known stays as it is. -/
def learn (s : Snapshot) (news : Update) : Snapshot :=
  if s.knows news then s
  else
    match news with
    | .registration r => { s with registration := r }
    | .display d => { s with display := d }
    | .signal x => { s with signal := x }
    | .roamingData enabled => { s with roamingData := enabled }

/-- Roaming service is usable only while roaming data is on, and service from a satellite is told
apart only while the feature for it is on. -/
def usability (s : Snapshot) (features : Features) : Usability :=
  let satellite := features.satelliteClassification && s.registration.nonTerrestrial
  match s.registration.state with
  | .home => if satellite then .nonTerrestrial else .home
  | .roaming =>
    if !s.roamingData then .notUsable
    else if satellite then .nonTerrestrial
    else .roamingEnabled
  | .outOfService | .unknown => .notUsable

/-- Without service the score is 0. -/
def score (s : Snapshot) (scorer : Scorer) : Int :=
  if s.registration.state.isInService then scorer s.display.access s.signal.level else 0

theorem learn_of_knows {s : Snapshot} {news : Update} (h : s.knows news = true) :
    s.learn news = s := by
  simp [learn, h]

theorem knows_learn (s : Snapshot) (news : Update) : (s.learn news).knows news = true := by
  unfold learn
  split
  next h => exact h
  next => cases news <;> simp [knows, Signal.same]

end Snapshot

structure Standing where
  id : Nat
  state : ServiceState
  usable : Usability
  score : Int
  deriving DecidableEq

/-- A followed modem: its slot and what is known of it. -/
structure Modem where
  id : Nat
  known : Snapshot

def Modem.standing (m : Modem) (features : Features) (scorer : Scorer) : Standing where
  id := m.id
  state := m.known.registration.state
  usable := m.known.usability features
  score := m.known.score scorer

end ModemSelect
