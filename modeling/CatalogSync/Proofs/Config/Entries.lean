import CatalogSync.Config.Settings
import CatalogSync.Proofs.Table

namespace CatalogSync

namespace Settings

variable (settings : Settings) {beginning ending : String}

/-- A beginning that a database cuts off as it stands: as many bytes as characters, none of them
zero. -/
def IsPlain (beginning : String) : Prop :=
  (Bytes.ofText beginning).length = beginning.toList.length ∧ '\x00' ∉ beginning.toList

theorem firstChars_append (hplain : '\x00' ∉ beginning.toList) (n : Nat) (rest : String) :
    firstChars n (beginning ++ rest) =
      beginning.toList.take n ++ firstChars (n - beginning.toList.length) rest := by
  have hall : ∀ c ∈ beginning.toList, decide (c ≠ '\x00') = true := by
    intro c hc
    exact decide_eq_true fun heq => hplain (heq ▸ hc)
  rw [firstChars, String.toList_append, List.takeWhile_append_of_pos hall, List.take_append,
    firstChars]

theorem firstChars_of_isPlain (h : IsPlain beginning) (rest : String) :
    firstChars (Bytes.ofText beginning).length (beginning ++ rest) = beginning.toList := by
  rw [firstChars_append h.2, h.1, List.take_length, Nat.sub_self]
  exact List.append_nil _

/-- The id between a beginning and an ending of a key, if there is one. -/
def idBetween? (beginning ending key : String) : Option String := do
  let rest ← Text.stripStart? beginning key
  let id ← Text.stripEnd? ending rest
  if id.isEmpty then none else some id

theorem idBetween?_eq_some_iff {key id : String} :
    idBetween? beginning ending key = some id ↔ id ≠ "" ∧ key = beginning ++ id ++ ending := by
  simp only [idBetween?, Option.bind_eq_bind, Option.bind_eq_some_iff, Text.stripStart?_eq_some,
    Text.stripEnd?_eq_some]
  constructor
  · rintro ⟨rest, rfl, id', rfl, hid⟩
    split at hid
    · cases hid
    · rename_i hempty
      cases hid
      exact ⟨by simpa using hempty, (String.append_assoc ..).symm⟩
  · rintro ⟨hid, rfl⟩
    exact ⟨id ++ ending, String.append_assoc .., id, rfl, by simp [hid]⟩

theorem idsBetween_eq (beginning ending : String) : settings.idsBetween beginning ending =
    (settings.withBeginning beginning).filterMap fun entry =>
      idBetween? beginning ending entry.1 := rfl

theorem mem_idsBetween_iff (h : IsPlain beginning) (id : String) :
    id ∈ settings.idsBetween beginning ending ↔
      id ≠ "" ∧ settings.contains (beginning ++ id ++ ending) = true := by
  rw [idsBetween_eq, List.mem_filterMap, Table.contains, Option.isSome_iff_exists]
  simp only [idBetween?_eq_some_iff, withBeginning, List.mem_filter]
  constructor
  · rintro ⟨⟨key, value⟩, ⟨hentry, -⟩, hid, rfl⟩
    exact ⟨hid, value, (settings.get?_eq_some_iff _ value).mpr hentry⟩
  · rintro ⟨hid, value, hvalue⟩
    refine ⟨(beginning ++ id ++ ending, value),
      ⟨(settings.get?_eq_some_iff _ value).mp hvalue, ?_⟩, hid, rfl⟩
    rw [decide_eq_true_eq, String.append_assoc]
    exact firstChars_of_isPlain h _

theorem pairwise_idsBetween (beginning ending : String) :
    (settings.idsBetween beginning ending).Pairwise fun a b =>
      Text.before (beginning ++ a ++ ending) (beginning ++ b ++ ending) = true := by
  rw [idsBetween_eq, List.pairwise_filterMap]
  refine (settings.ascending.filter _).imp ?_
  intro a b hbefore id hid id' hid'
  rwa [(idBetween?_eq_some_iff.mp hid).2, (idBetween?_eq_some_iff.mp hid').2] at hbefore

theorem nodup_idsBetween (beginning ending : String) :
    (settings.idsBetween beginning ending).Nodup := by
  refine (settings.pairwise_idsBetween beginning ending).imp ?_
  rintro id id' hbefore rfl
  rw [Text.before_irrefl] at hbefore
  cases hbefore

theorem mem_listenerNames_iff (name : String) :
    name ∈ settings.listenerNames ↔
      name ≠ "" ∧ settings.contains (ListenerConfig.key name "watch") = true := by
  rw [listenerNames, settings.mem_idsBetween_iff ⟨by decide, by decide⟩, ListenerConfig.key,
    String.append_assoc, String.append_assoc, String.append_assoc]
  rfl

theorem mem_harvesterIds_iff (id : String) :
    id ∈ settings.harvesterIds ↔
      id ≠ "" ∧ settings.contains (HarvesterConfig.key id "root") = true := by
  rw [harvesterIds, settings.mem_idsBetween_iff ⟨by decide, by decide⟩, HarvesterConfig.key,
    String.append_assoc, String.append_assoc, String.append_assoc]
  rfl

end Settings

theorem toOption_eq_some_iff {ε α : Type} {x : Except ε α} {a : α} :
    x.toOption = some a ↔ x = .ok a := by
  cases x <;> simp [Except.toOption]

namespace ListenerConfig

theorem ofSettings_eq_ok {settings : Settings} {name : String} {config : ListenerConfig}
    (h : ofSettings settings name = .ok config) :
    config.name = name ∧ settings.contains (key name "watch") = true := by
  rw [ofSettings] at h
  split at h
  · cases h
  · rename_i watch hwatch
    cases h
    rw [Table.contains, (Option.filter_eq_some_iff.mp hwatch).1]
    exact ⟨rfl, rfl⟩

end ListenerConfig

namespace HarvesterConfig

theorem interval_ne_zero_of_validate {config : HarvesterConfig}
    (hvalid : config.validate = .ok ()) :
    config.interval ≠ 0 := by
  intro hzero
  rw [validate] at hvalid
  split_ifs at hvalid

/-- The settings that a harvester can have. -/
def settingNames : List String :=
  ["root", "poll_interval_secs", "attribute_overrides", "listener_policy",
    "idle_without_listeners"]

theorem eq_of_append_dot {front front' back back' : List Char} (hback : '.' ∉ back)
    (hback' : '.' ∉ back') (h : front ++ '.' :: back = front' ++ '.' :: back') :
    front = front' ∧ back = back' := by
  have htail : ∀ (front : List Char) {back : List Char}, '.' ∉ back →
      ((front ++ '.' :: back).reverse.takeWhile fun c => c ≠ '.') = back.reverse := by
    intro front back hdot
    have hall : ∀ c ∈ back.reverse, decide (c ≠ '.') = true := by
      intro c hc
      exact decide_eq_true fun heq => hdot (heq ▸ List.mem_reverse.mp hc)
    rw [List.reverse_append, List.reverse_cons, List.append_assoc,
      List.takeWhile_append_of_pos hall]
    simp
  have hsame : back = back' := by
    rw [← List.reverse_inj, ← htail front hback, h, htail front' hback']
  subst hsame
  exact ⟨List.append_cancel_right h, rfl⟩

theorem eq_of_dotted {id id' name name' : String} (hname : '.' ∉ name.toList)
    (hname' : '.' ∉ name'.toList) (h : id ++ ("." ++ name) = id' ++ ("." ++ name')) :
    id = id' ∧ name = name' := by
  have hlists := congrArg String.toList h
  simp only [String.toList_append] at hlists
  obtain ⟨hid, hrest⟩ := eq_of_append_dot hname hname' hlists
  exact ⟨String.toList_inj.mp hid, String.toList_inj.mp hrest⟩

theorem key_inj {id id' name name' : String} (hname : name ∈ settingNames)
    (hname' : name' ∈ settingNames) (h : key id name = key id' name') :
    id = id' ∧ name = name' := by
  have hdots : ∀ name ∈ settingNames, '.' ∉ name.toList := by decide
  simp only [key, String.append_assoc, String.append_right_inj] at h
  exact eq_of_dotted (hdots name hname) (hdots name' hname') h

theorem ofSettings_congr {id : String} {settings settings' : Settings}
    (h : ∀ name ∈ settingNames, settings'.get? (key id name) = settings.get? (key id name)) :
    ofSettings settings' id = ofSettings settings id := by
  simp only [ofSettings, readInterval, readOverrides, readPolicy, readIdle,
    h "root" (by decide), h "poll_interval_secs" (by decide),
    h "attribute_overrides" (by decide), h "listener_policy" (by decide),
    h "idle_without_listeners" (by decide)]

/-- Settings that are the same but for those of other harvesters. -/
def SameButOthers (id : String) (settings settings' : Settings) : Prop :=
  ∀ key', (∀ other ≠ id, ∀ name ∈ settingNames, key' ≠ key other name) →
    settings'.get? key' = settings.get? key'

theorem ofSettings_of_sameButOthers {id : String} {settings settings' : Settings}
    (h : SameButOthers id settings settings') :
    ofSettings settings' id = ofSettings settings id := by
  apply ofSettings_congr
  intro name hname
  refine h (key id name) fun other hother name' hname' hkey => ?_
  exact hother (key_inj hname hname' hkey).1.symm

theorem exists_of_bind_ok {ε α β : Type} {x : Except ε α} {f : α → Except ε β} {b : β}
    (h : x >>= f = .ok b) : ∃ a, x = .ok a ∧ f a = .ok b := by
  cases x with
  | error e => cases h
  | ok a => exact ⟨a, rfl, h⟩

theorem ofSettings_eq_ok {settings : Settings} {id : String} {config : HarvesterConfig}
    (h : ofSettings settings id = .ok config) :
    config.id = id ∧ config.validate = .ok () ∧ settings.contains (key id "root") = true := by
  rw [ofSettings] at h
  cases hget : settings.get? (key id "root") with
  | none =>
    rw [hget] at h
    cases h
  | some root =>
    rw [hget] at h
    obtain ⟨_, -, h⟩ := exists_of_bind_ok h
    obtain ⟨interval, -, h⟩ := exists_of_bind_ok h
    obtain ⟨overrides, -, h⟩ := exists_of_bind_ok h
    obtain ⟨policy, -, h⟩ := exists_of_bind_ok h
    obtain ⟨idle, -, h⟩ := exists_of_bind_ok h
    obtain ⟨_, hvalid, h⟩ := exists_of_bind_ok h
    cases h
    exact ⟨rfl, hvalid, by rw [Table.contains, hget, Option.isSome_some]⟩

/-- A harvester is listed if and only if it has a root; that its id is not empty is checked again
later. -/
theorem mem_harvesterIds_of_ofSettings {settings : Settings} {id : String}
    {config : HarvesterConfig} (h : ofSettings settings id = .ok config) :
    id ∈ settings.harvesterIds := by
  obtain ⟨hid, hvalid, hroot⟩ := ofSettings_eq_ok h
  rw [Settings.mem_harvesterIds_iff]
  refine ⟨?_, hroot⟩
  rintro rfl
  rw [validate, hid] at hvalid
  cases hvalid

end HarvesterConfig

end CatalogSync
