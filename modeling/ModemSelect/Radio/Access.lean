import ModemSelect.Text

namespace ModemSelect

/-- The radio access technology that a modem reports for data. -/
inductive NetworkType where
  | unknown
  | gsm
  | umts
  | hspa
  | lte
  | nr
  deriving DecidableEq

instance : Named NetworkType where
  all := [.unknown, .gsm, .umts, .hspa, .lte, .nr]
  name
    | .unknown => "unknown"
    | .gsm => "gsm"
    | .umts => "umts"
    | .hspa => "hspa"
    | .lte => "lte"
    | .nr => "nr"

/-- The icon hint that a modem may lay over its network type. -/
inductive OverrideType where
  | none
  | lteCa
  | lteAdvancedPro
  | nrNsa
  | nrAdvanced
  deriving DecidableEq

instance : Named OverrideType where
  all := [.none, .lteCa, .lteAdvancedPro, .nrNsa, .nrAdvanced]
  name
    | .none => "none"
    | .lteCa => "lte_ca"
    | .lteAdvancedPro => "lte_advanced_pro"
    | .nrNsa => "nr_nsa"
    | .nrAdvanced => "nr_advanced"

/-- The class of access technology by which slots are scored. -/
inductive Access where
  | unknown
  | gsm
  | umts
  | lte
  | lteCa
  | nrNsa
  | nrNsaMmwave
  | nrSa
  deriving DecidableEq

/-- In configuration a class goes by its upper case label. -/
instance : Named Access where
  all := [.unknown, .gsm, .umts, .lte, .lteCa, .nrNsa, .nrNsaMmwave, .nrSa]
  name
    | .unknown => "UNKNOWN"
    | .gsm => "GSM"
    | .umts => "UMTS"
    | .lte => "LTE"
    | .lteCa => "LTE_CA"
    | .nrNsa => "NR_NSA"
    | .nrNsaMmwave => "NR_NSA_MMWAVE"
    | .nrSa => "NR_SA"

/-- In reports a class is a member of the table and goes by its own key. -/
def Access.reportKey : Access → String
  | .unknown => "Unknown"
  | .gsm => "Gsm"
  | .umts => "Umts"
  | .lte => "Lte"
  | .lteCa => "LteCa"
  | .nrNsa => "NrNsa"
  | .nrNsaMmwave => "NrNsaMmwave"
  | .nrSa => "NrSa"

/-- The class that a score row is written for: blanks around the label and the case of its ASCII
letters do not matter, and the unknown class has no row. -/
def Access.ofLabel? (label : String) : Option Access :=
  let upper := String.ofList ((trimBlanks label).toList.map Char.toUpper)
  let access : Option Access := Named.ofName? upper
  access.filter (· != .unknown)

structure Display where
  networkType : NetworkType := .unknown
  overrideType : OverrideType := .none
  deriving DecidableEq

/-- An override decides the class; without one the network type does. -/
def Display.access (display : Display) : Access :=
  match display.overrideType with
  | .nrAdvanced => .nrNsaMmwave
  | .nrNsa => .nrNsa
  | .lteCa | .lteAdvancedPro => .lteCa
  | .none =>
    match display.networkType with
    | .nr => .nrSa
    | .lte => .lte
    | .umts | .hspa => .umts
    | .gsm => .gsm
    | .unknown => .unknown

end ModemSelect
