import Netcf.Schema.Document
import Netcf.Stylesheet.Extension

set_option autoImplicit false

-- The bonding-opts templates of util-get.xsl and util-put.xsl, which the drivers share.
namespace Netcf.Stylesheet

open Schema Shared Shared.Pattern

def ifPresent {α : Type} (test : Option α) (text : α → String) : String :=
  match test with
  | some found => text found
  | none => ""

def useCarrier : Carrier → String
  | .ioctl => "0"
  | .netif => "1"

def option (key value : String) : String :=
  " " ++ key ++ "=" ++ value

def monitorOpts : Monitor → String
  | .miimon freq downdelay updelay carrier =>
    option "miimon" freq.text ++
      ifPresent downdelay (fun delay => option "downdelay" delay.text) ++
      ifPresent updelay (fun delay => option "updelay" delay.text) ++
      ifPresent carrier (fun source => option "use_carrier" (useCarrier source))
  | .arpmon interval target validate =>
    option "arp_interval" interval.text ++ option "arp_ip_target" target.text ++
      ifPresent validate (fun check => option "arp_validate" check.text)

def bondingOpts (bond : BondElement) : String :=
  "'" ++ ifPresent bond.mode (fun mode => "mode=" ++ mode.text) ++
    (if bond.mode = some .activeBackup then option "primary" bond.first.name.text else "") ++
    ifPresent bond.monitor monitorOpts ++ "'"

def modeName (mode : String) : String :=
  if mode = "0" then "balance-rr"
  else if mode = "1" then "active-backup"
  else if mode = "2" then "balance-xor"
  else if mode = "3" then "broadcast"
  else if mode = "4" then "802.3ad"
  else if mode = "5" then "balance-tlb"
  else if mode = "6" then "balance-alb"
  else mode

def nonempty (text : String) : Option String :=
  if text = "" then none else some text

def carrierName (option : String) : String :=
  (if option = "0" then "ioctl" else "") ++ (if option = "1" then "netif" else "")

def validateName (option : String) : String :=
  (if option = "none" ∨ option = "0" then "none" else "") ++
    (if option = "active" ∨ option = "1" then "active" else "") ++
    (if option = "backup" ∨ option = "2" then "backup" else "") ++
    (if option = "all" ∨ option = "3" then "all" else "")

def modeAttribute (opts : String) : List (String × String) :=
  Xml.optional "mode" ((nonempty (bondOption opts "mode")).map modeName)

def miimonElement (opts : String) : List Xml :=
  match nonempty (bondOption opts "miimon") with
  | some freq =>
    [.element "miimon"
      (("freq", freq) ::
        (Xml.optional "downdelay" (nonempty (bondOption opts "downdelay")) ++
          Xml.optional "updelay" (nonempty (bondOption opts "updelay")) ++
          Xml.optional "carrier" ((nonempty (bondOption opts "use_carrier")).map carrierName))) []]
  | none => []

def arpmonElement (opts : String) : List Xml :=
  match nonempty (bondOption opts "arp_interval") with
  | some interval =>
    [.element "arpmon"
      (("interval", interval) :: ("target", bondOption opts "arp_ip_target") ::
        Xml.optional "validate" ((nonempty (bondOption opts "arp_validate")).map validateName)) []]
  | none => []

def keywords : List String :=
  ["mode", "primary", "miimon", "downdelay", "updelay", "use_carrier", "arp_interval",
    "arp_ip_target", "arp_validate"]

def KeywordFree (name : String) : Prop :=
  ∀ keyword ∈ keywords, ¬ keyword.toList <:+: name.toList

instance (name : String) : Decidable (KeywordFree name) :=
  inferInstanceAs (Decidable (∀ keyword ∈ keywords, ¬ keyword.toList <:+: name.toList))

-- The options of a bond as a table.
def monitorTable : Monitor → List (String × String)
  | .miimon freq downdelay updelay carrier =>
    ("miimon", freq.text) ::
      ((downdelay.map fun delay => ("downdelay", delay.text)).toList ++
        (updelay.map fun delay => ("updelay", delay.text)).toList ++
        (carrier.map fun source => ("use_carrier", useCarrier source)).toList)
  | .arpmon interval target validate =>
    ("arp_interval", interval.text) :: ("arp_ip_target", target.text) ::
      (validate.map fun check => ("arp_validate", check.text)).toList

def laterTable (bond : BondElement) : List (String × String) :=
  (if bond.mode = some .activeBackup then [("primary", bond.first.name.text)] else []) ++
    (bond.monitor.map monitorTable).getD []

def optionTable (bond : BondElement) : List (String × String) :=
  (bond.mode.map fun mode => ("mode", mode.text)).toList ++ laterTable bond

def item (entry : String × String) : List Char :=
  entry.1.toList ++ '=' :: entry.2.toList

def closing : List (String × String) → List Char
  | [] => ['\'']
  | entry :: rest => ' ' :: (item entry ++ closing rest)

theorem option_eq (key value : String) : (option key value).toList = ' ' :: item (key, value) := by
  simp [option, item]

theorem monitorOpts_eq (monitor : Monitor) :
    (monitorOpts monitor).toList ++ ['\''] = closing (monitorTable monitor) := by
  rcases monitor with ⟨freq, _ | down, _ | up, _ | carrier⟩ | ⟨interval, target, _ | check⟩ <;>
    simp [monitorOpts, monitorTable, ifPresent, closing, option_eq]

theorem bondingOpts_eq (bond : BondElement) :
    (bondingOpts bond).toList =
      '\'' :: ((bond.mode.map fun mode => item ("mode", mode.text)).getD [] ++
        closing (laterTable bond)) := by
  have monitored : (ifPresent bond.monitor monitorOpts).toList ++ ['\''] =
      closing ((bond.monitor.map monitorTable).getD []) := by
    cases bond.monitor with
    | none => simp [ifPresent, closing]
    | some monitor => simpa [ifPresent] using monitorOpts_eq monitor
  cases mode : bond.mode with
  | none => simp [bondingOpts, laterTable, mode, ← monitored, ifPresent]
  | some value =>
    by_cases backup : value = .activeBackup <;>
      simp [bondingOpts, laterTable, mode, backup, ← monitored, ifPresent, closing, option_eq, item]

theorem lookupOption_skip {name token rest : List Char} {separator : Char}
    (outside : separator ∉ name) (absent : ¬ name <:+: token) :
    lookupOption (token ++ separator :: rest) name = lookupOption rest name := by
  unfold lookupOption
  rw [Search.dropInfix?_skip outside absent]
  cases rest.dropInfix? name <;> rfl

theorem lookupOption_item {name value rest : List Char} {stop : Char}
    (plain : ∀ c ∈ value, endsValue c = false) (stops : endsValue stop = true) :
    lookupOption (name ++ '=' :: (value ++ stop :: rest)) name = value := by
  unfold lookupOption
  rw [Search.dropInfix?_here]
  have inside : ∀ c ∈ value, (!endsValue c) = true := by
    intro c member
    simp [plain c member]
  simp [valueAfter, List.takeWhile_append_of_pos inside, stops]

def plainKey (name : String) : Bool :=
  name.toList ≠ [] ∧ ' ' ∉ name.toList ∧ '=' ∉ name.toList ∧ '\'' ∉ name.toList

-- An entry that cannot be mistaken for the option `name`.
structure Clean (name : String) (entry : String × String) : Prop where
  key : entry.1 = name ∨ ¬ name.toList <:+: entry.1.toList
  value : ¬ name.toList <:+: entry.2.toList
  plain : ∀ c ∈ entry.2.toList, endsValue c = false

theorem closing_head (table : List (String × String)) :
    ∃ stop rest, closing table = stop :: rest ∧ (stop = ' ' ∨ stop = '\'') := by
  cases table with
  | nil => exact ⟨'\'', [], rfl, Or.inr rfl⟩
  | cons entry rest => exact ⟨' ', _, rfl, Or.inl rfl⟩

theorem lookupOption_entry {name : String} (key : plainKey name = true) {entry : String × String}
    (clean : Clean name entry) (table : List (String × String)) :
    lookupOption (item entry ++ closing table) name.toList =
      if entry.1 = name then entry.2.toList else lookupOption (closing table) name.toList := by
  obtain ⟨stop, rest, split, blank⟩ := closing_head table
  simp only [plainKey, decide_eq_true_eq] at key
  obtain ⟨some_name, noBlank, noEqual, noQuote⟩ := key
  have outside : stop ∉ name.toList := by
    rcases blank with rfl | rfl
    · exact noBlank
    · exact noQuote
  have stops : endsValue stop = true := by
    rcases blank with rfl | rfl <;> decide
  rw [split, item, List.append_assoc, List.cons_append]
  by_cases same : entry.1 = name
  · rw [if_pos same, same]
    exact lookupOption_item clean.plain stops
  · have other := clean.key.resolve_left same
    have atStop : ¬ name.toList <:+: [] := by simpa using some_name
    rw [if_neg same, lookupOption_skip noEqual other, lookupOption_skip outside clean.value]
    exact (@lookupOption_skip _ [] _ _ outside atStop).symm

theorem lookupOption_closing {name : String} (key : plainKey name = true)
    {table : List (String × String)} (clean : ∀ entry ∈ table, Clean name entry) :
    lookupOption (closing table) name.toList = ((table.lookup name).getD "").toList := by
  have parts := key
  simp only [plainKey, decide_eq_true_eq] at parts
  have atStop : ¬ name.toList <:+: [] := by simpa using parts.1
  induction table with
  | nil =>
    have skipped := @lookupOption_skip _ [] [] _ parts.2.2.2 atStop
    rw [closing, List.nil_append] at *
    rw [skipped]
    unfold lookupOption
    rw [Search.dropInfix?_none atStop]
    rfl
  | cons entry rest ih =>
    have skipped := @lookupOption_skip _ [] (item entry ++ closing rest) _ parts.2.1 atStop
    rw [List.nil_append] at skipped
    rw [closing, skipped, lookupOption_entry key (clean entry (by simp))]
    rw [ih (fun later member => clean later (by simp [member]))]
    obtain ⟨label, value⟩ := entry
    by_cases same : label = name
    · simp [same]
    · have other : (name == label) = false := by simpa using fun equal => same equal.symm
      simp [List.lookup_cons, same, other]

-- The values a bond can carry: no keyword occurs in them and nothing in them ends a value.
structure Value (text : String) : Prop where
  free : KeywordFree text
  plain : ∀ c ∈ text.toList, endsValue c = false

def numeric (c : Char) : Bool := c.isDigit || c == '.'

theorem value_of_numeric {text : String} (digits : ∀ c ∈ text.toList, numeric c = true) : Value text where
  free := by
    intro keyword listed inside
    have letter : ∀ keyword ∈ keywords, keyword.toList.any (fun c => !numeric c) = true := by decide
    obtain ⟨c, member, other⟩ := List.any_eq_true.mp (letter keyword listed)
    have allowed := digits c (inside.subset member)
    simp [allowed] at other
  plain := by
    intro c member
    have allowed := digits c member
    by_contra ends
    simp only [Bool.not_eq_false, endsValue, decide_eq_true_eq] at ends
    rcases ends with rfl | rfl | rfl | rfl <;> revert allowed <;> decide

theorem value_unsigned {most : Nat} (number : Unsigned most) : Value number.text :=
  value_of_numeric (number.within (by decide))

theorem value_ipv4 (address : Ipv4Addr) : Value address.text :=
  value_of_numeric (address.within (by decide))

theorem value_name {name : DeviceName} (free : KeywordFree name.text) : Value name.text where
  free := free
  plain := by
    intro c member
    have kept : within (fun c => !endsValue c) Schema.deviceName = true := by decide
    simpa using name.within kept c member

theorem plain_of_all {text : String} (all : text.toList.all (fun c => !endsValue c) = true) :
    ∀ c ∈ text.toList, endsValue c = false := by
  simpa using all

theorem value_mode (mode : BondMode) : Value mode.text := by
  cases mode <;> exact ⟨by decide, plain_of_all (by decide)⟩

theorem value_carrier (carrier : Carrier) : Value (useCarrier carrier) := by
  cases carrier <;> exact ⟨by decide, plain_of_all (by decide)⟩

theorem value_validate (check : ArpValidate) : Value check.text := by
  cases check <;> exact ⟨by decide, plain_of_all (by decide)⟩

theorem monitorTable_values (monitor : Monitor) :
    ∀ entry ∈ monitorTable monitor, entry.1 ∈ keywords ∧ Value entry.2 := by
  cases monitor with
  | miimon freq downdelay updelay carrier =>
    simp only [monitorTable, List.mem_cons, List.mem_append, Option.mem_toList,
      Option.map_eq_some_iff]
    rintro entry (rfl | (⟨delay, _, rfl⟩ | ⟨delay, _, rfl⟩) | ⟨source, _, rfl⟩)
    · exact ⟨by simp [keywords], value_unsigned freq⟩
    · exact ⟨by simp [keywords], value_unsigned delay⟩
    · exact ⟨by simp [keywords], value_unsigned delay⟩
    · exact ⟨by simp [keywords], value_carrier source⟩
  | arpmon interval target validate =>
    simp only [monitorTable, List.mem_cons, Option.mem_toList, Option.map_eq_some_iff]
    rintro entry (rfl | rfl | ⟨check, _, rfl⟩)
    · exact ⟨by simp [keywords], value_unsigned interval⟩
    · exact ⟨by simp [keywords], value_ipv4 target⟩
    · exact ⟨by simp [keywords], value_validate check⟩

theorem laterTable_values (bond : BondElement) (free : KeywordFree bond.first.name.text) :
    ∀ entry ∈ laterTable bond, entry.1 ∈ keywords ∧ Value entry.2 := by
  intro entry member
  rcases List.mem_append.mp member with primary | monitored
  · split at primary
    · rcases List.mem_singleton.mp primary with rfl
      exact ⟨by simp [keywords], value_name free⟩
    · simp at primary
  · cases monitor : bond.monitor with
    | none => simp [monitor] at monitored
    | some found => exact monitorTable_values found entry (by simpa [monitor] using monitored)

theorem clean_of_keyword {keyword : String} (listed : keyword ∈ keywords) {entry : String × String}
    (key : entry.1 ∈ keywords) (value : Value entry.2) : Clean keyword entry where
  key := by
    have apart : ∀ a ∈ keywords, ∀ b ∈ keywords, b = a ∨ ¬ a.toList <:+: b.toList := by decide
    exact apart keyword listed entry.1 key
  value := value.free keyword listed
  plain := value.plain

theorem bondOption_bondingOpts (bond : BondElement) (free : KeywordFree bond.first.name.text)
    {keyword : String} (listed : keyword ∈ keywords) :
    bondOption (bondingOpts bond) keyword = ((optionTable bond).lookup keyword).getD "" := by
  have plain : ∀ keyword ∈ keywords, plainKey keyword = true := by decide
  have key := plain keyword listed
  have parts := key
  simp only [plainKey, decide_eq_true_eq] at parts
  have later := lookupOption_closing key (fun entry member =>
    clean_of_keyword listed (laterTable_values bond free entry member).1
      (laterTable_values bond free entry member).2)
  rw [bondOption, bondingOpts_eq]
  rw [show ∀ text : List Char, '\'' :: text = [] ++ '\'' :: text from fun _ => rfl]
  rw [lookupOption_skip parts.2.2.2 (by simpa using parts.1)]
  cases mode : bond.mode with
  | none => simp [optionTable, mode, later]
  | some value =>
    have clean : Clean keyword ("mode", value.text) :=
      clean_of_keyword listed (by simp [keywords]) (value_mode value)
    have entry := lookupOption_entry key clean (laterTable bond)
    simp only [Option.map_some, Option.getD_some, entry, optionTable, mode, Option.toList_some]
    by_cases same : "mode" = keyword
    · simp [← same]
    · have other : (keyword == "mode") = false := by simpa using fun equal => same equal.symm
      simp [same, later, List.lookup_cons, other]

theorem nonempty_lexeme {pattern : RegularExpression Char} (lexeme : Lexeme pattern)
    (proper : pattern.matchEpsilon = false) : nonempty lexeme.text = some lexeme.text := by
  have some_text := lexeme.nonempty proper
  have other : lexeme.text ≠ "" := by
    intro empty
    exact some_text (by simp [empty])
  simp [nonempty, other]

@[simp] theorem nonempty_unsigned {most : Nat} (number : Unsigned most) :
    nonempty number.text = some number.text :=
  nonempty_lexeme number.toLexeme (by decide)

@[simp] theorem nonempty_empty : nonempty "" = none := rfl

@[simp] theorem carrierName_useCarrier (carrier : Carrier) :
    (nonempty (useCarrier carrier)).map carrierName = some carrier.text := by
  cases carrier <;> rfl

@[simp] theorem validateName_text (check : ArpValidate) :
    (nonempty check.text).map validateName = some check.text := by
  cases check <;> rfl

@[simp] theorem modeName_text (mode : BondMode) :
    (nonempty mode.text).map modeName = some mode.text := by
  cases mode <;> rfl

theorem modeAttribute_bondingOpts (bond : BondElement) (free : KeywordFree bond.first.name.text) :
    modeAttribute (bondingOpts bond) = Xml.optional "mode" (bond.mode.map (·.text)) := by
  rw [modeAttribute, bondOption_bondingOpts bond free (by simp [keywords])]
  cases mode : bond.mode with
  | none =>
    have absent : (laterTable bond).lookup "mode" = none := by
      rcases monitor : bond.monitor with
        _ | (⟨freq, _ | down, _ | up, _ | carrier⟩ | ⟨interval, target, _ | check⟩) <;>
        simp [laterTable, monitorTable, mode, monitor, List.lookup_cons]
    simp [optionTable, mode, absent]
  | some value => simp [optionTable, mode]

theorem bondOption_primary (bond : BondElement) (free : KeywordFree bond.first.name.text) :
    bondOption (bondingOpts bond) "primary" =
      if bond.mode = some .activeBackup then bond.first.name.text else "" := by
  rw [bondOption_bondingOpts bond free (by simp [keywords])]
  by_cases backup : bond.mode = some .activeBackup
  · simp [optionTable, laterTable, backup, List.lookup_cons]
  · rcases mode : bond.mode with _ | value <;>
    rcases monitor : bond.monitor with
      _ | (⟨freq, _ | down, _ | up, _ | carrier⟩ | ⟨interval, target, _ | check⟩) <;>
      simp_all [optionTable, laterTable, monitorTable, List.lookup_cons]

theorem lookup_optionTable (bond : BondElement) {keyword : String} (notMode : keyword ≠ "mode")
    (notPrimary : keyword ≠ "primary") :
    (optionTable bond).lookup keyword = ((bond.monitor.map monitorTable).getD []).lookup keyword := by
  have other : (keyword == "mode") = false := by simpa using notMode
  have another : (keyword == "primary") = false := by simpa using notPrimary
  cases mode : bond.mode with
  | none => simp [optionTable, laterTable, mode]
  | some value =>
    by_cases backup : value = .activeBackup <;>
      simp [optionTable, laterTable, mode, backup, List.lookup_cons, other, another]

theorem monitorElements_bondingOpts (bond : BondElement) (free : KeywordFree bond.first.name.text) :
    miimonElement (bondingOpts bond) ++ arpmonElement (bondingOpts bond) =
      (bond.monitor.map Monitor.toXml).toList := by
  have reads : ∀ keyword ∈ keywords, keyword ≠ "mode" → keyword ≠ "primary" →
      bondOption (bondingOpts bond) keyword =
        (((bond.monitor.map monitorTable).getD []).lookup keyword).getD "" := by
    intro keyword listed notMode notPrimary
    rw [bondOption_bondingOpts bond free listed, lookup_optionTable bond notMode notPrimary]
  rw [miimonElement, arpmonElement]
  rw [reads "miimon" (by decide) (by decide) (by decide),
    reads "downdelay" (by decide) (by decide) (by decide),
    reads "updelay" (by decide) (by decide) (by decide),
    reads "use_carrier" (by decide) (by decide) (by decide),
    reads "arp_interval" (by decide) (by decide) (by decide),
    reads "arp_ip_target" (by decide) (by decide) (by decide),
    reads "arp_validate" (by decide) (by decide) (by decide)]
  rcases bond.monitor with _ | monitor
  · simp
  · rcases monitor with ⟨freq, _ | down, _ | up, _ | carrier⟩ | ⟨interval, target, _ | check⟩ <;>
      simp [monitorTable, Monitor.toXml, List.lookup_cons]

end Netcf.Stylesheet
