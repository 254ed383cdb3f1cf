import CatalogSync.Proofs.Config.Entries
import CatalogSync.Proofs.Decimal
import CatalogSync.Proofs.Json.Recognition
import CatalogSync.Proofs.Overrides

namespace CatalogSync

namespace Json

/-- A text that holds an array of nothing but texts. -/
def WritesTexts (input : String) (texts : List String) : Prop :=
  ∃ literals : List Literal,
    Holds (Bytes.ofText input) (.array (literals.map .text)) ∧
      literals.mapM Literal.text? = some texts

theorem mapM_text?_eq_some_iff {items : List Source} {texts : List String} :
    items.mapM Source.text? = some texts ↔
      ∃ literals : List Literal, items = literals.map .text ∧
        literals.mapM Literal.text? = some texts := by
  constructor
  · intro h
    induction items generalizing texts with
    | nil =>
      cases h
      exact ⟨[], rfl, rfl⟩
    | cons item items ih =>
      simp only [List.mapM_cons, Option.bind_eq_bind, Option.bind_eq_some_iff] at h
      obtain ⟨text, htext, rest, hrest, hsame⟩ := h
      cases hsame
      obtain ⟨literals, rfl, hread⟩ := ih hrest
      cases item with
      | text literal =>
        refine ⟨literal :: literals, rfl, ?_⟩
        rw [List.mapM_cons, hread, show literal.text? = some text from htext]
        rfl
      | _ => cases htext
  · rintro ⟨literals, rfl, h⟩
    rw [← h]
    clear h
    induction literals with
    | nil => rfl
    | cons literal literals ih =>
      rw [List.map_cons, List.mapM_cons, List.mapM_cons, ih]
      rfl

theorem list?_text?_eq_some_iff {source : Source} {texts : List String} :
    Source.list? Source.text? source = some texts ↔
      ∃ literals : List Literal,
        source = .array (literals.map .text) ∧ literals.mapM Literal.text? = some texts := by
  cases source with
  | array items =>
    rw [Source.list?, mapM_text?_eq_some_iff]
    simp only [Source.array.injEq]
  | _ => simp [Source.list?]

theorem parse?_texts_eq_some_iff {input : String} {texts : List String} :
    (parse? (Bytes.ofText input)).bind (Source.list? Source.text?) = some texts ↔
      WritesTexts input texts := by
  simp only [Option.bind_eq_some_iff, parse?_eq_some_iff, list?_text?_eq_some_iff, WritesTexts]
  constructor
  · rintro ⟨source, hholds, literals, rfl, hread⟩
    exact ⟨literals, hholds, hread⟩
  · rintro ⟨literals, hholds, hread⟩
    exact ⟨_, hholds, literals, rfl, hread⟩

end Json

namespace HarvesterConfig

section Grammar

/-- A setting that is not given has a default; one that is given has to be written in some way. -/
def Gives {α : Type} (default : α) (written : String → α → Prop) (given : Option String)
    (value : α) :
    Prop :=
  match given with
  | none => value = default
  | some text => written text value

/-- One slash at the end of a root counts for nothing. -/
def DropsSlash (root rest : String) : Prop :=
  root = rest ++ "/" ∨ root = rest ∧ ∀ front, root ≠ front ++ "/"

/-- A whole number of seconds, in 64 bits. -/
def WritesSeconds (text : String) (seconds : Nat) : Prop :=
  Decimal.Writes text seconds ∧ seconds < UInt64.size

/-- As many seconds, but not none, in milliseconds. -/
def WritesInterval (text : String) (interval : Nat) : Prop :=
  ∃ seconds, WritesSeconds text seconds ∧ seconds ≠ 0 ∧ interval = 1000 * seconds

def WritesOverrides (text : String) (overrides : Overrides) : Prop :=
  ∃ pairs, Json.WritesTexts text pairs ∧ (∀ pair ∈ pairs, Overrides.IsPair pair) ∧
    ∀ name, overrides.get? name =
      if Overrides.valuesOf name pairs = [] then none else some (Overrides.valuesOf name pairs)

inductive WritesPolicy : String → ListenerPolicy → Prop where
  | fanOut : WritesPolicy "fan_out" .fanOut
  | single : WritesPolicy "single" .single

inductive WritesFlag : String → Bool → Prop where
  | on : WritesFlag "true" true
  | off : WritesFlag "false" false

/-- What the settings of a harvester have to be, and the configuration that they stand for. -/
structure Describes (settings : Settings) (id : String) (config : HarvesterConfig) : Prop where
  identity : config.id = id
  named : Text.isBlank id = false
  root : ∃ root, settings.get? (key id "root") = some root ∧ DropsSlash root config.root
  rooted : Text.isBlank config.root = false
  interval : Gives 5000 WritesInterval (settings.get? (key id "poll_interval_secs")) config.interval
  overrides : Gives Table.empty WritesOverrides (settings.get? (key id "attribute_overrides"))
    config.overrides
  policy : Gives .fanOut WritesPolicy (settings.get? (key id "listener_policy")) config.policy
  idling : Gives true WritesFlag (settings.get? (key id "idle_without_listeners"))
    config.idleWithoutListeners

inductive Fault where
  | noRoot
  | interval
  | overrides
  | pair
  | policy
  | idling
  | blankId
  | blankRoot
  | zeroInterval
  deriving DecidableEq, Repr

namespace Fault

/-- The faults in the order in which they are looked for. -/
def order : List Fault :=
  [noRoot, interval, overrides, pair, policy, idling, blankId, blankRoot, zeroInterval]

/-- The settings have a fault, and this is the error that tells so. -/
def Causes (settings : Settings) (id : String) (e : ConfigError) : Fault → Prop
  | noRoot => settings.get? (key id "root") = none ∧ e = .missingKey (key id "root")
  | interval => ∃ text, settings.get? (key id "poll_interval_secs") = some text ∧
      (∀ seconds, ¬ WritesSeconds text seconds) ∧
      e = .invalidValue (key id "poll_interval_secs") text
  | overrides => ∃ text, settings.get? (key id "attribute_overrides") = some text ∧
      (∀ pairs, ¬ Json.WritesTexts text pairs) ∧
      e = .invalidValue (key id "attribute_overrides") text
  | pair => ∃ text pairs bad, settings.get? (key id "attribute_overrides") = some text ∧
      Json.WritesTexts text pairs ∧ Overrides.FirstMalformed bad pairs ∧ e = .invalidOverride bad
  | policy => ∃ text, settings.get? (key id "listener_policy") = some text ∧
      (∀ policy, ¬ WritesPolicy text policy) ∧ e = .invalidValue "listener_policy" text
  | idling => ∃ text, settings.get? (key id "idle_without_listeners") = some text ∧
      (∀ flag, ¬ WritesFlag text flag) ∧ e = .invalidValue (key id "idle_without_listeners") text
  | blankId => Text.isBlank id = true ∧ e = .invalidValue "id" id
  | blankRoot => ∃ root rest, settings.get? (key id "root") = some root ∧ DropsSlash root rest ∧
      Text.isBlank rest = true ∧ e = .missingKey (key id "root")
  | zeroInterval => ∃ text, settings.get? (key id "poll_interval_secs") = some text ∧
      WritesSeconds text 0 ∧ e = .invalidValue (key id "poll_interval_secs") "0"

/-- The first of some faults that the settings have causes an error. -/
def FirstCauses (settings : Settings) (id : String) (e : ConfigError) : List Fault → Prop
  | [] => False
  | fault :: rest =>
    fault.Causes settings id e ∨
      (∀ other, ¬ fault.Causes settings id other) ∧ FirstCauses settings id e rest

end Fault

end Grammar

variable {settings : Settings} {id : String} {config : HarvesterConfig} {e : ConfigError}

section Readers

/-- A reader reads exactly what is written in some way. -/
def Reads {α : Type} (read : String → Option α) (written : String → α → Prop) : Prop :=
  ∀ text value, read text = some value ↔ written text value

/-- A setting with a default, or read if it is given. What cannot be read is an error. -/
def readWith {α : Type} (default : α) (read : String → Option α) (error : String → ConfigError) :
    Option String → Except ConfigError α
  | none => .ok default
  | some text =>
    match read text with
    | some value => .ok value
    | none => .error (error text)

section Reads

variable {α : Type} {default : α} {read : String → Option α} {written : String → α → Prop}
  {error : String → ConfigError} {given : Option String}

theorem Reads.readWith_ok_iff (h : Reads read written) {value : α} :
    readWith default read error given = .ok value ↔ Gives default written given value := by
  cases given with
  | none =>
    simp only [readWith, Gives, Except.ok.injEq]
    exact eq_comm
  | some text =>
    rw [Gives, ← h text value, readWith]
    cases read text <;> simp

theorem Reads.readWith_error_iff (h : Reads read written) {e : ConfigError} :
    readWith default read error given = .error e ↔
      ∃ text, given = some text ∧ (∀ value, ¬ written text value) ∧ e = error text := by
  cases given with
  | none => simp [readWith]
  | some text =>
    simp only [readWith, Option.some.injEq, exists_eq_left', ← h text]
    cases read text <;> simp [eq_comm]

end Reads

def readRoot (settings : Settings) (id : String) : Except ConfigError String :=
  match settings.get? (key id "root") with
  | some root => .ok root
  | none => .error (.missingKey (key id "root"))

def milliseconds? (text : String) : Option Nat :=
  (Decimal.unsigned64? text).map (1000 * ·)

def texts? (text : String) : Option (List String) :=
  (Json.parse? (Bytes.ofText text)).bind (Json.Source.list? Json.Source.text?)

def policy? (text : String) : Option ListenerPolicy :=
  (ListenerPolicy.ofText text).toOption

def flag? (text : String) : Option Bool :=
  if text = "true" then some true else if text = "false" then some false else none

theorem reads_milliseconds : Reads milliseconds?
    fun text interval => ∃ seconds, WritesSeconds text seconds ∧ interval = 1000 * seconds := by
  intro text interval
  simp only [milliseconds?, WritesSeconds, ← Decimal.unsigned64?_eq_some_iff,
    Option.map_eq_some_iff, @eq_comm _ interval]

theorem reads_texts : Reads texts? Json.WritesTexts := fun _ _ => Json.parse?_texts_eq_some_iff

theorem reads_policy : Reads policy? WritesPolicy := by
  intro text policy
  rw [policy?, toOption_eq_some_iff, ListenerPolicy.ofText]
  constructor
  · intro h
    split_ifs at h with hfan hsingle
    · cases h
      exact hfan ▸ .fanOut
    · cases h
      exact hsingle ▸ .single
  · rintro (_ | _) <;> rfl

theorem reads_flag : Reads flag? WritesFlag := by
  intro text flag
  rw [flag?]
  constructor
  · intro h
    split_ifs at h with hon hoff
    · cases h
      exact hon ▸ .on
    · cases h
      exact hoff ▸ .off
  · rintro (_ | _) <;> rfl

theorem readInterval_eq (settings : Settings) (id : String) :
    readInterval settings id =
      readWith 5000 milliseconds? (.invalidValue (key id "poll_interval_secs"))
        (settings.get? (key id "poll_interval_secs")) := by
  rw [readInterval]
  cases settings.get? (key id "poll_interval_secs") with
  | none => rfl
  | some text =>
    simp only [readWith, milliseconds?]
    cases Decimal.unsigned64? text <;> rfl

theorem readOverrides_eq (settings : Settings) (id : String) :
    readOverrides settings id =
      readWith [] texts? (.invalidValue (key id "attribute_overrides"))
        (settings.get? (key id "attribute_overrides")) >>= Overrides.ofPairs := by
  rw [readOverrides]
  cases settings.get? (key id "attribute_overrides") with
  | none => rfl
  | some text =>
    simp only [readWith, texts?]
    cases (Json.parse? (Bytes.ofText text)).bind (Json.Source.list? Json.Source.text?) <;> rfl

theorem readPolicy_eq (settings : Settings) (id : String) :
    readPolicy settings id =
      readWith .fanOut policy? (.invalidValue "listener_policy")
        (settings.get? (key id "listener_policy")) := by
  rw [readPolicy]
  cases settings.get? (key id "listener_policy") with
  | none => rfl
  | some text =>
    simp only [readWith, policy?, ListenerPolicy.ofText]
    split_ifs <;> rfl

theorem readIdle_eq (settings : Settings) (id : String) :
    readIdle settings id =
      readWith true flag? (.invalidValue (key id "idle_without_listeners"))
        (settings.get? (key id "idle_without_listeners")) := by
  rw [readIdle]
  cases settings.get? (key id "idle_without_listeners") with
  | none => rfl
  | some text =>
    simp only [readWith, flag?]
    split_ifs <;> rfl

theorem ofSettings_eq (settings : Settings) (id : String) : ofSettings settings id =
    readRoot settings id >>= fun root =>
    readWith 5000 milliseconds? (.invalidValue (key id "poll_interval_secs"))
      (settings.get? (key id "poll_interval_secs")) >>= fun interval =>
    readWith [] texts? (.invalidValue (key id "attribute_overrides"))
      (settings.get? (key id "attribute_overrides")) >>= fun pairs =>
    Overrides.ofPairs pairs >>= fun overrides =>
    readWith .fanOut policy? (.invalidValue "listener_policy")
      (settings.get? (key id "listener_policy")) >>= fun policy =>
    readWith true flag? (.invalidValue (key id "idle_without_listeners"))
      (settings.get? (key id "idle_without_listeners")) >>= fun idle =>
    validate ⟨id, canonicalRoot root, interval, overrides, policy, idle⟩ >>= fun _ =>
    .ok ⟨id, canonicalRoot root, interval, overrides, policy, idle⟩ := by
  simp only [ofSettings, readInterval_eq, readOverrides_eq, readPolicy_eq, readIdle_eq, bind_assoc]
  rw [readRoot]
  cases settings.get? (key id "root") <;> rfl

def refuseIf (refused : Prop) [Decidable refused] (e : ConfigError) : Except ConfigError Unit :=
  if refused then .error e else .ok ()

theorem refuseIf_error_iff {refused : Prop} [Decidable refused] {error : ConfigError} :
    refuseIf refused error = .error e ↔ refused ∧ e = error := by
  rw [refuseIf]
  split_ifs with h <;> simp [h, eq_comm]

theorem refuseIf_ok_iff {refused : Prop} [Decidable refused] {error : ConfigError} {done : Unit} :
    refuseIf refused error = .ok done ↔ ¬ refused := by
  rw [refuseIf]
  split_ifs with h <;> simp [h]

theorem validate_eq (config : HarvesterConfig) : config.validate =
    refuseIf (Text.isBlank config.id = true) (.invalidValue "id" config.id) >>= fun _ =>
    refuseIf (Text.isBlank config.root = true) (.missingKey (key config.id "root")) >>= fun _ =>
    refuseIf (config.interval = 0) (.invalidValue (key config.id "poll_interval_secs") "0") := by
  have hkey : ∀ name, key config.id name = "harvester." ++ config.id ++ ("." ++ name) := by
    intro name
    rw [key, String.append_assoc]
  simp only [validate, refuseIf, hkey]
  split_ifs <;> rfl

theorem canonicalRoot_eq_iff {root rest : String} : canonicalRoot root = rest ↔
    DropsSlash root rest := by
  rw [canonicalRoot, DropsSlash]
  cases h : Text.stripEnd? "/" root with
  | some front =>
    obtain rfl := Text.stripEnd?_eq_some.mp h
    rw [Option.getD_some]
    constructor
    · rintro rfl
      exact Or.inl rfl
    · rintro (hsame | ⟨-, hnone⟩)
      · exact (String.append_left_inj "/").mp hsame
      · exact absurd rfl (hnone front)
  | none =>
    rw [Option.getD_none]
    have hnone : ∀ front, root ≠ front ++ "/" := by
      intro front hfront
      rw [Text.stripEnd?_eq_some.mpr hfront] at h
      cases h
    constructor
    · rintro rfl
      exact Or.inr ⟨rfl, hnone⟩
    · rintro (hsame | ⟨rfl, -⟩)
      · exact absurd hsame (hnone rest)
      · rfl

end Readers

section Faults

theorem bind_eq_ok_iff {α β : Type} {x : Except ConfigError α} {f : α → Except ConfigError β}
    {b : β} :
    (x >>= f) = .ok b ↔ ∃ a, x = .ok a ∧ f a = .ok b := by
  constructor
  · exact exists_of_bind_ok
  · rintro ⟨a, rfl, h⟩
    exact h

theorem firstCauses_bind {α β : Type} {x : Except ConfigError α} {f : α → Except ConfigError β}
    {fault : Fault} {rest : List Fault} (hx : ∀ e, x = .error e ↔ fault.Causes settings id e)
    (hf : ∀ a, x = .ok a → (f a = .error e ↔ Fault.FirstCauses settings id e rest)) :
    (x >>= f) = .error e ↔ Fault.FirstCauses settings id e (fault :: rest) := by
  rw [Fault.FirstCauses, ← hx e]
  simp only [← hx]
  cases hread : x with
  | error e' =>
    constructor
    · rintro ⟨⟩
      exact Or.inl rfl
    · rintro (h | ⟨hnone, -⟩)
      · cases h
        rfl
      · exact absurd rfl (hnone e')
  | ok a =>
    refine (hf a hread).trans ?_
    simp

theorem readRoot_eq_ok_iff {root : String} :
    readRoot settings id = .ok root ↔ settings.get? (key id "root") = some root := by
  rw [readRoot]
  cases settings.get? (key id "root") <;> simp

theorem readRoot_eq_error_iff :
    readRoot settings id = .error e ↔ Fault.noRoot.Causes settings id e := by
  rw [readRoot, Fault.Causes]
  cases settings.get? (key id "root") <;> simp [eq_comm]

theorem interval_causes_iff :
    readWith 5000 milliseconds? (.invalidValue (key id "poll_interval_secs"))
        (settings.get? (key id "poll_interval_secs")) = .error e ↔
      Fault.interval.Causes settings id e := by
  rw [reads_milliseconds.readWith_error_iff, Fault.Causes]
  simp only [not_exists, not_and]
  constructor
  · rintro ⟨text, hgiven, hnone, he⟩
    exact ⟨text, hgiven, fun seconds hwritten => hnone _ seconds hwritten rfl, he⟩
  · rintro ⟨text, hgiven, hnone, he⟩
    exact ⟨text, hgiven, fun _ seconds hwritten _ => hnone seconds hwritten, he⟩

theorem writesTexts_inj {text : String} {texts texts' : List String}
    (h : Json.WritesTexts text texts) (h' : Json.WritesTexts text texts') : texts = texts' := by
  rw [← Json.parse?_texts_eq_some_iff] at h h'
  exact Option.some.inj (h.symm.trans h')

theorem writesSeconds_inj {text : String} {seconds seconds' : Nat} (h : WritesSeconds text seconds)
    (h' : WritesSeconds text seconds') : seconds = seconds' := by
  rw [WritesSeconds, ← Decimal.unsigned64?_eq_some_iff] at h h'
  exact Option.some.inj (h.symm.trans h')

theorem pair_causes_iff {pairs : List String}
    (h : readWith [] texts? (.invalidValue (key id "attribute_overrides"))
      (settings.get? (key id "attribute_overrides")) = .ok pairs) :
    Overrides.ofPairs pairs = .error e ↔ Fault.pair.Causes settings id e := by
  rw [Overrides.ofPairs_eq_error_iff, Fault.Causes]
  rw [reads_texts.readWith_ok_iff] at h
  cases hgiven : settings.get? (key id "attribute_overrides") with
  | none =>
    rw [hgiven] at h
    obtain rfl : pairs = [] := h
    simp [Overrides.FirstMalformed]
  | some text =>
    rw [hgiven] at h
    constructor
    · rintro ⟨bad, hfirst, he⟩
      exact ⟨text, pairs, bad, rfl, h, hfirst, he⟩
    · rintro ⟨text', pairs', bad, hsame, hwritten, hfirst, he⟩
      cases hsame
      rw [writesTexts_inj h hwritten]
      exact ⟨bad, hfirst, he⟩

theorem blankRoot_causes_iff {root : String} (h : readRoot settings id = .ok root) :
    Text.isBlank (canonicalRoot root) = true ∧ e = .missingKey (key id "root") ↔
      Fault.blankRoot.Causes settings id e := by
  rw [readRoot_eq_ok_iff] at h
  simp only [Fault.Causes, h, ← canonicalRoot_eq_iff, Option.some.injEq, exists_eq_left',
    exists_and_left]

theorem zeroInterval_causes_iff {interval : Nat}
    (h : readWith 5000 milliseconds? (.invalidValue (key id "poll_interval_secs"))
      (settings.get? (key id "poll_interval_secs")) = .ok interval) :
    interval = 0 ∧ e = .invalidValue (key id "poll_interval_secs") "0" ↔
      Fault.zeroInterval.Causes settings id e := by
  rw [reads_milliseconds.readWith_ok_iff] at h
  cases hgiven : settings.get? (key id "poll_interval_secs") with
  | none =>
    rw [hgiven] at h
    obtain rfl : interval = 5000 := h
    simp [Fault.Causes, hgiven]
  | some text =>
    rw [hgiven] at h
    obtain ⟨seconds, hwritten, rfl⟩ : ∃ seconds, WritesSeconds text seconds ∧
      interval = 1000 * seconds := h
    simp only [Fault.Causes, hgiven, Option.some.injEq, exists_eq_left']
    refine and_congr_left fun _ => ?_
    constructor
    · intro hzero
      obtain rfl : seconds = 0 := by omega
      exact hwritten
    · intro hzero
      rw [writesSeconds_inj hwritten hzero]

/-- The first fault in the order of the steps is the one that is reported. -/
theorem ofSettings_eq_error_iff :
    ofSettings settings id = .error e ↔ Fault.FirstCauses settings id e Fault.order := by
  rw [ofSettings_eq]
  simp only [validate_eq, bind_assoc]
  refine firstCauses_bind (fun _ => readRoot_eq_error_iff) fun root hroot => ?_
  refine firstCauses_bind (fun _ => interval_causes_iff) fun interval hinterval => ?_
  refine firstCauses_bind (fun _ => reads_texts.readWith_error_iff) fun pairs hpairs => ?_
  refine firstCauses_bind (fun _ => pair_causes_iff hpairs) fun overrides _ => ?_
  refine firstCauses_bind (fun _ => reads_policy.readWith_error_iff) fun policy _ => ?_
  refine firstCauses_bind (fun _ => reads_flag.readWith_error_iff) fun idle _ => ?_
  refine firstCauses_bind (fun _ => refuseIf_error_iff) fun _ _ => ?_
  refine firstCauses_bind (fun _ => refuseIf_error_iff.trans (blankRoot_causes_iff hroot))
    fun _ _ => ?_
  refine firstCauses_bind (fun _ => refuseIf_error_iff.trans (zeroInterval_causes_iff hinterval))
    fun _ _ => ?_
  simp [Fault.FirstCauses]

theorem exists_firstCauses_iff (faults : List Fault) :
    (∃ e, Fault.FirstCauses settings id e faults) ↔
      ∃ fault ∈ faults, ∃ e, fault.Causes settings id e := by
  induction faults with
  | nil => simp [Fault.FirstCauses]
  | cons fault rest ih =>
    rw [List.exists_mem_cons_iff, ← ih]
    simp only [Fault.FirstCauses, exists_or, exists_and_left]
    by_cases hcauses : ∃ e, fault.Causes settings id e
    · simp [hcauses]
    · simp [not_exists.mp hcauses]

theorem Fault.mem_order (fault : Fault) : fault ∈ Fault.order := by
  cases fault <;> decide

theorem exists_ofSettings_eq_ok_iff : (∃ config, ofSettings settings id = .ok config) ↔
    ∀ (fault : Fault) (e : ConfigError), ¬ fault.Causes settings id e := by
  have hfaulty : (∃ e, Fault.FirstCauses settings id e Fault.order) ↔ _ :=
    exists_firstCauses_iff Fault.order
  simp only [← ofSettings_eq_error_iff, Fault.mem_order, true_and] at hfaulty
  constructor
  · rintro ⟨config, hread⟩ fault e hcauses
    obtain ⟨e', herror⟩ := hfaulty.mpr ⟨fault, e, hcauses⟩
    rw [hread] at herror
    cases herror
  · intro hnone
    cases hread : ofSettings settings id with
    | ok config => exact ⟨config, rfl⟩
    | error e =>
      obtain ⟨fault, e', hcauses⟩ := hfaulty.mp ⟨e, hread⟩
      exact absurd hcauses (hnone fault e')

end Faults

section Success

theorem validate_eq_ok_iff {done : Unit} : config.validate = .ok done ↔
    Text.isBlank config.id = false ∧ Text.isBlank config.root = false ∧ config.interval ≠ 0 := by
  simp [validate_eq, bind_eq_ok_iff, refuseIf_ok_iff]

theorem gives_interval_iff {given : Option String} {interval : Nat} :
    Gives 5000 (fun text interval => ∃ seconds, WritesSeconds text seconds ∧
      interval = 1000 * seconds)
        given interval ∧ interval ≠ 0 ↔
      Gives 5000 WritesInterval given interval := by
  cases given with
  | none =>
    simp only [Gives, and_iff_left_iff_imp]
    omega
  | some text =>
    simp only [Gives, WritesInterval]
    constructor
    · rintro ⟨⟨seconds, hwritten, rfl⟩, hzero⟩
      exact ⟨seconds, hwritten, by omega, rfl⟩
    · rintro ⟨seconds, hwritten, hzero, rfl⟩
      exact ⟨⟨seconds, hwritten, rfl⟩, by omega⟩

theorem gives_overrides_iff {given : Option String} {overrides : Overrides} :
    (∃ pairs, Gives [] Json.WritesTexts given pairs ∧ Overrides.ofPairs pairs = .ok overrides) ↔
      Gives Table.empty WritesOverrides given overrides := by
  cases given with
  | none =>
    simp only [Gives, exists_eq_left, Overrides.ofPairs, Overrides.addPairs, Except.ok.injEq]
    exact eq_comm
  | some text => simp only [Gives, WritesOverrides, Overrides.ofPairs_eq_ok_iff]

theorem ofSettings_eq_ok_iff :
    ofSettings settings id = .ok config ↔ Describes settings id config := by
  simp only [ofSettings_eq, bind_eq_ok_iff, readRoot_eq_ok_iff, reads_milliseconds.readWith_ok_iff,
    reads_texts.readWith_ok_iff, reads_policy.readWith_ok_iff, reads_flag.readWith_ok_iff,
    validate_eq_ok_iff]
  constructor
  · rintro ⟨root, hroot, interval, hinterval, pairs, hpairs, overrides, hoverrides, policy, hpolicy,
      idle, hidle, -, ⟨hid, hblank, hzero⟩, ⟨⟩⟩
    exact {
      identity := rfl
      named := hid
      root := ⟨root, hroot, canonicalRoot_eq_iff.mp rfl⟩
      rooted := hblank
      interval := gives_interval_iff.mp ⟨hinterval, hzero⟩
      overrides := gives_overrides_iff.mp ⟨pairs, hpairs, hoverrides⟩
      policy := hpolicy
      idling := hidle }
  · rintro ⟨rfl, hid, ⟨root, hroot, hrest⟩, hblank, hinterval, hoverrides, hpolicy, hidle⟩
    obtain ⟨hinterval, hzero⟩ := gives_interval_iff.mpr hinterval
    obtain ⟨pairs, hpairs, hoverrides⟩ := gives_overrides_iff.mpr hoverrides
    refine ⟨root, hroot, _, hinterval, pairs, hpairs, _, hoverrides, _, hpolicy, _, hidle, (), ?_⟩
    rw [canonicalRoot_eq_iff.mpr hrest]
    exact ⟨⟨hid, hblank, hzero⟩, rfl⟩

end Success

/-- Settings are accepted exactly if they have none of the faults. What they describe then is the
harvester that one gets, and it makes sense; and otherwise the first of the faults in their order is
reported. -/
theorem settings_described_or_faulty (settings : Settings) (id : String) :
    ((∃ config, ofSettings settings id = .ok config) ↔
        ∀ (fault : Fault) (e : ConfigError), ¬ fault.Causes settings id e) ∧
      (∀ config, ofSettings settings id = .ok config ↔ Describes settings id config) ∧
      (∀ config, ofSettings settings id = .ok config → config.validate = .ok ()) ∧
      ∀ e, ofSettings settings id = .error e ↔ Fault.FirstCauses settings id e Fault.order := by
  refine ⟨exists_ofSettings_eq_ok_iff, fun config => ofSettings_eq_ok_iff, ?_,
    fun e => ofSettings_eq_error_iff⟩
  intro config hread
  exact (ofSettings_eq_ok hread).2.1

/-- Settings of two harvesters, and two faults in those of the second. -/
def orchardSettings : Settings :=
  Table.ofList [("harvester.plum.root", "/orchard//"),
    ("harvester.plum.poll_interval_secs", "+030"),
    ("harvester.plum.attribute_overrides", " [\"kind=fruit\", \"kind=blue\"]"),
    ("harvester.plum.listener_policy", "single"), ("harvester.pear.root", "/"),
    ("harvester.pear.listener_policy", "double")]

def plum : HarvesterConfig :=
  ⟨"plum", "/orchard/", 30000, Table.ofList [("kind", ["fruit", "blue"])], .single, true⟩

theorem plum_described_pear_faulty :
    ofSettings orchardSettings "plum" = .ok plum ∧ Describes orchardSettings "plum" plum ∧
      plum.validate = .ok () ∧
      Fault.FirstCauses orchardSettings "pear" (.invalidValue "listener_policy" "double")
        Fault.order ∧
      Fault.blankRoot.Causes orchardSettings "pear" (.missingKey "harvester.pear.root") := by
  obtain ⟨-, hdescribed, hvalid, -⟩ := settings_described_or_faulty orchardSettings "plum"
  obtain ⟨-, -, -, hfaulty⟩ := settings_described_or_faulty orchardSettings "pear"
  have hread : ofSettings orchardSettings "plum" = .ok plum := by decide +kernel
  have hroot : readRoot orchardSettings "pear" = .ok "/" := by decide +kernel
  refine ⟨hread, (hdescribed plum).mp hread, hvalid plum hread, (hfaulty _).mp (by decide +kernel),
    ?_⟩
  exact (blankRoot_causes_iff hroot).mp ⟨by decide +kernel, by decide⟩

end HarvesterConfig

end CatalogSync
