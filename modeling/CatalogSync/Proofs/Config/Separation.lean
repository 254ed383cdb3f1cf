import CatalogSync.Proofs.Config.Entries
import CatalogSync.Proofs.Disk.Settings

namespace CatalogSync

namespace ListenerConfig

def settingNames : List String :=
  ["watch", "catalog_dir"]

theorem key_inj {name name' setting setting' : String} (hsetting : setting ∈ settingNames)
    (hsetting' : setting' ∈ settingNames) (h : key name setting = key name' setting') :
    name = name' ∧ setting = setting' := by
  have hdots : ∀ setting ∈ settingNames, '.' ∉ setting.toList := by decide
  simp only [key, String.append_assoc, String.append_right_inj] at h
  exact HarvesterConfig.eq_of_dotted (hdots setting hsetting) (hdots setting' hsetting') h

theorem ofSettings_congr {name : String} {settings settings' : Settings}
    (h : ∀ setting ∈ settingNames,
      settings'.get? (key name setting) = settings.get? (key name setting)) :
    ofSettings settings' name = ofSettings settings name := by
  simp only [ofSettings, h "watch" (by decide), h "catalog_dir" (by decide)]

theorem key_ne_harvesterKey (name setting id name' : String) :
    key name setting ≠ HarvesterConfig.key id name' := by
  intro h
  have hfirst := congrArg (fun text => text.toList.head?) h
  simp [key, HarvesterConfig.key, String.toList_append] at hfirst

end ListenerConfig

inductive Owner where
  | harvester (id : String)
  | listener (name : String)
  deriving DecidableEq

namespace Owner

/-- The keys that a description is read from. -/
def keys : Owner → List String
  | harvester id => HarvesterConfig.settingNames.map (HarvesterConfig.key id)
  | listener name => ListenerConfig.settingNames.map (ListenerConfig.key name)

/-- What settings say of an owner, or what is wrong with them. -/
def described (settings : Settings) :
    Owner → Except ConfigError HarvesterConfig ⊕ Except ConfigError ListenerConfig
  | harvester id => .inl (HarvesterConfig.ofSettings settings id)
  | listener name => .inr (ListenerConfig.ofSettings settings name)

theorem eq_of_mem_keys {owner other : Owner} {key : String} (hkey : key ∈ owner.keys)
    (hkey' : key ∈ other.keys) : owner = other := by
  cases owner with
  | harvester id =>
    obtain ⟨name, hname, rfl⟩ := List.mem_map.mp hkey
    cases other with
    | harvester id' =>
      obtain ⟨name', hname', hsame⟩ := List.mem_map.mp hkey'
      rw [(HarvesterConfig.key_inj hname' hname hsame).1]
    | listener name' =>
      obtain ⟨setting, -, hsame⟩ := List.mem_map.mp hkey'
      exact absurd hsame (ListenerConfig.key_ne_harvesterKey _ _ _ _)
  | listener name =>
    obtain ⟨setting, hsetting, rfl⟩ := List.mem_map.mp hkey
    cases other with
    | harvester id =>
      obtain ⟨name', -, hsame⟩ := List.mem_map.mp hkey'
      exact absurd hsame.symm (ListenerConfig.key_ne_harvesterKey _ _ _ _)
    | listener name' =>
      obtain ⟨setting', hsetting', hsame⟩ := List.mem_map.mp hkey'
      rw [(ListenerConfig.key_inj hsetting' hsetting hsame).1]

/-- Nothing but the keys of an owner decides what it is described as. -/
theorem described_congr {owner : Owner} {settings settings' : Settings}
    (h : ∀ key ∈ owner.keys, settings'.get? key = settings.get? key) :
    owner.described settings' = owner.described settings := by
  cases owner with
  | harvester id =>
    apply congrArg Sum.inl
    apply HarvesterConfig.ofSettings_congr
    intro name hname
    exact h _ (List.mem_map_of_mem hname)
  | listener name =>
    apply congrArg Sum.inr
    apply ListenerConfig.ofSettings_congr
    intro setting hsetting
    exact h _ (List.mem_map_of_mem hsetting)

theorem described_apply {owner other : Owner} (hother : owner ≠ other) {change : Edit}
    (hkey : change.key ∈ owner.keys) (settings : Settings) :
    other.described (change.apply settings) = other.described settings := by
  apply described_congr
  intro key hkey'
  rw [Edit.get?_apply, if_neg]
  rintro rfl
  exact hother (eq_of_mem_keys hkey hkey')

end Owner

namespace Disk

variable {connection : Connection} {disk : Disk} {settings : Settings}

theorem described_edit (h : disk.settings connection = .ok settings) {owner other : Owner}
    (hother : owner ≠ other) {change : Edit} (hkey : change.key ∈ owner.keys) :
    ∃ changed, (edit connection change disk).2.settings connection = .ok changed ∧
      other.described changed = other.described settings := by
  have hedited := edited_edit h change
  generalize edit connection change disk = answer at hedited ⊢
  cases hedited with
  | refused e => exact ⟨settings, h, rfl⟩
  | accepted after hafter =>
    exact ⟨change.apply settings, hafter, Owner.described_apply hother hkey settings⟩

/-- Whatever has been set and removed, the harvesters and listeners that are listed are those with
an id and a root, or a harvester to watch, and a further change of a key of one of them is no matter
to the others. -/
theorem owners_apart (connection : Connection) {disk : Disk} {settings : Settings}
    (h : disk.settings connection = .ok settings) (edits : List Edit) :
    ∃ after, (editAll connection edits disk).settings connection = .ok after ∧
      let stored := Edit.stored settings.get? (accepted connection disk edits)
      (∀ id, id ∈ after.harvesterIds ↔
        id ≠ "" ∧ (stored (HarvesterConfig.key id "root")).isSome) ∧
      after.harvesterIds.Nodup ∧
      (∀ name, name ∈ after.listenerNames ↔
        name ≠ "" ∧ (stored (ListenerConfig.key name "watch")).isSome) ∧
      after.listenerNames.Nodup ∧
      (∀ (owner : Owner) (table : Settings),
        (∀ key ∈ owner.keys, table.get? key = stored key) →
          owner.described table = owner.described after) ∧
      ∀ owner other : Owner, owner ≠ other → ∀ change : Edit, change.key ∈ owner.keys →
        ∃ changed,
          (edit connection change (editAll connection edits disk)).2.settings connection =
              .ok changed ∧
            other.described changed = other.described after := by
  have hafter := settings_editAll h edits
  have hget := Edit.get?_foldl_apply (accepted connection disk edits) settings
  refine ⟨_, hafter, ?_, Settings.nodup_idsBetween .., ?_, Settings.nodup_idsBetween .., ?_, ?_⟩
  · intro id
    rw [Settings.mem_harvesterIds_iff, Table.contains, hget]
  · intro name
    rw [Settings.mem_listenerNames_iff, Table.contains, hget]
  · intro owner table hsame
    apply Owner.described_congr
    intro key hkey
    rw [hsame key hkey, hget]
  · intro owner other hother change hkey
    exact described_edit hafter hother hkey

/-- Harvesters and a listener whose ids look like parts of keys. -/
def lookalikes : List Edit :=
  [.set "harvester.a.root" "r", .set "harvester.root.root" "s", .set "harvester.a.root.root" "t",
    .set "harvester.a.poll_interval_secs.root" "u", .set "harvester..root" "v",
    .set "listener.a.watch" "a", .set "listener..watch" "a", .remove "harvester.root.root"]

def lookalikeSettings : Settings :=
  lookalikes.foldl Edit.apply Table.empty

/-- An interval that is no number is a matter of the harvester `a` alone. -/
theorem lookalikes_apart :
    unnamed.2.settings unnamed.1 = .ok Table.empty ∧
      lookalikeSettings.harvesterIds = ["a.poll_interval_secs", "a", "a.root"] ∧
      lookalikeSettings.listenerNames = ["a"] ∧
      "harvester.a.poll_interval_secs" ∈ (Owner.harvester "a").keys ∧
      ∀ other, Owner.harvester "a" ≠ other → ∃ changed,
        (edit unnamed.1 (.set "harvester.a.poll_interval_secs" "x")
          (editAll unnamed.1 lookalikes unnamed.2)).2.settings unnamed.1 = .ok changed ∧
        other.described changed = other.described lookalikeSettings := by
  have hkey : "harvester.a.poll_interval_secs" ∈ (Owner.harvester "a").keys := by decide
  obtain ⟨after, hafter, -, -, -, -, -, hapart⟩ :=
    owners_apart unnamed.1 settings_unnamed lookalikes
  obtain rfl : lookalikeSettings = after :=
    Except.ok.inj ((settings_editAll_unnamed lookalikes).symm.trans hafter)
  refine ⟨settings_unnamed, by decide +kernel, by decide +kernel, hkey, fun other hother => ?_⟩
  exact hapart _ other hother _ hkey

end Disk

end CatalogSync
