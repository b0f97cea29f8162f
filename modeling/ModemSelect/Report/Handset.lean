import ModemSelect.Handset.Basic
import ModemSelect.Report.Values

namespace ModemSelect

def SlotSet.toJson (s : SlotSet) : Json := .nats s.ids

def Phone.toJson (p : Phone) : Json :=
  .obj [("registration", p.registration.toJson), ("display", p.display.toJson),
    ("signal", p.signal.toJson), ("roaming_data", .bool p.roamingData),
    ("user_data", .bool p.userData), ("restrictions", .names (Named.distinct p.restrictions)),
    ("internet", .names p.verdict.refusals)]

/-- The first `count` slots of the handset and how they are used. -/
def Handset.report (h : Handset) (count : Nat) : List (String × Json) :=
  [("phones", .ofList (fun id => .ofOption Phone.toJson (h.phone? id)) (List.range count)),
    ("active", h.active.toJson),
    ("default", .ofOption .ofNat h.defaultSlot),
    ("preferred", .ofOption .ofNat h.preferredSlot),
    ("subscribed", h.subscribed.toJson)]

end ModemSelect
