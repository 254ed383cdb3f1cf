import CatalogSync.Harvest.Registry
import Mathlib.Data.List.Nodup

namespace CatalogSync.Registry

open Harvester

/-- Who is there once a listener has asked to be attached. -/
def join (policy : ListenerPolicy) (members : List ListenerId) (listener : ListenerId) :
    List ListenerId :=
  if listener ∈ members then members
  else if policy = .single ∧ members ≠ [] then members
  else members ++ [listener]

/-- Who is there once a listener has left and those that watch have asked again. -/
def relieve (policy : ListenerPolicy) (members : List ListenerId) (listener : ListenerId)
    (watching : List ListenerId) : List ListenerId :=
  if listener ∈ members then
    let left := members.filter fun member => member ≠ listener
    (watching.filter fun other => other ∉ left).foldl (join policy) left
  else members

/-- A harvester for many listeners holds exactly those that watch it, and one for a single listener
the oldest of them. -/
structure Holds (policy : ListenerPolicy) (members watching : List ListenerId) : Prop where
  nodup : members.Nodup
  fanOut : policy = .fanOut → ∀ listener, listener ∈ members ↔ listener ∈ watching
  single : policy = .single → members = watching.head?.toList

section Operations

variable (h : Harvester)

theorem register_eq_join (listener : ListenerId) (name : String) :
    h.register listener name = .ok { h with members := join h.policy h.members listener } ∨
      (∃ e, h.register listener name = .error e) ∧
        join h.policy h.members listener = h.members := by
  unfold register join
  by_cases hmember : listener ∈ h.members
  · apply Or.inl
    simp [hasListener, hmember]
  · by_cases hfull : h.policy = .single ∧ h.members ≠ []
    · apply Or.inr
      simp [hasListener, hmember, hfull]
    · apply Or.inl
      simp only [hasListener, List.contains_eq_mem, hmember, decide_false, Bool.false_eq_true,
        if_false, hfull]

theorem attach_snd (watch : Watch) :
    (attach watch h).2 = { h with members := join h.policy h.members watch.listener } := by
  unfold attach
  rcases register_eq_join h watch.listener watch.name with hok | ⟨⟨e, herror⟩, hsame⟩
  · rw [hok]
  · rw [herror, hsame]

theorem attachAll_fst (watches : List Watch) :
    (attachAll h watches).1 =
      { h with members := (watches.map Watch.listener).foldl (join h.policy) h.members } := by
  induction watches generalizing h with
  | nil => rfl
  | cons watch watches ih =>
    unfold attachAll
    rcases register_eq_join h watch.listener watch.name with hok | ⟨⟨e, herror⟩, hsame⟩
    · rw [hok, List.map_cons, List.foldl_cons]
      exact ih { h with members := join h.policy h.members watch.listener }
    · rw [herror, List.map_cons, List.foldl_cons, hsame]
      exact ih h

theorem detach_eq (registry : Registry) (watch : Watch) :
    registry.detach watch h = { h with
      members := relieve h.policy h.members watch.listener
        ((registry.watchesOn watch.harvester).map Watch.listener) } := by
  unfold detach relieve
  by_cases hmember : watch.listener ∈ h.members
  · have hhas : h.hasListener watch.listener = true := by simpa [hasListener] using hmember
    rw [if_pos hhas, attachAll_fst]
    simp only [hmember, if_true, hasListener, unregister, List.filter_map]
    congr 3
    apply List.filter_congr
    intro other _
    simp
  · have hnot : h.hasListener watch.listener = false := by simpa [hasListener] using hmember
    rw [if_neg (by simp [hnot]), if_neg hmember]

theorem detachAll_eq (registry : Registry) (id : String) :
    registry.detachAll id h = { h with
      members := h.members.filter fun member =>
        member ∉ (registry.watchesOn id).map Watch.listener } := by
  unfold detachAll
  induction registry.watchesOn id generalizing h with
  | nil => simp
  | cons watch watches ih =>
    rw [List.foldl_cons, ih, unregister]
    simp only [List.filter_filter, List.map_cons, List.mem_cons, not_or]
    congr 1
    apply List.filter_congr
    intro member _
    simp [and_comm, Bool.and_comm]

theorem ne_of_removeWatch?_eq_none {registry : Registry} {listener : ListenerId}
    (h : registry.removeWatch? listener = none) :
    ∀ watch ∈ registry.watches, watch.listener ≠ listener := by
  unfold removeWatch? at h
  split at h
  · rename_i hfind
    simpa using hfind
  · cases h

theorem split_of_removeWatch?_eq_some {registry left : Registry} {listener : ListenerId}
    {watch : Watch} (h : registry.removeWatch? listener = some (watch, left)) :
    watch.listener = listener ∧ ∃ before after, registry.watches = before ++ watch :: after ∧
      (∀ earlier ∈ before, earlier.listener ≠ listener) ∧
      left = ⟨registry.harvesters, before ++ after⟩ := by
  unfold removeWatch? at h
  split at h
  · cases h
  · rename_i found hfind
    obtain ⟨rfl, rfl⟩ := Prod.mk.inj (Option.some.inj h)
    obtain ⟨hlistener, before, after, hwatches, hbefore⟩ := List.find?_eq_some_iff_append.mp hfind
    have hlistener' : found.listener = listener := by simpa using hlistener
    have hbefore' : ∀ earlier ∈ before, earlier.listener ≠ listener := by simpa using hbefore
    refine ⟨hlistener', before, after, hwatches, hbefore', ?_⟩
    have habsent : found ∉ before := fun hmem => hbefore' found hmem hlistener'
    rw [hwatches, List.erase_append_right _ habsent, List.erase_cons_head]

end Operations

section Policies

variable {policy : ListenerPolicy} {members watching : List ListenerId} {listener : ListenerId}

theorem mem_join_fanOut {other : ListenerId} :
    other ∈ join .fanOut members listener ↔ other ∈ members ∨ other = listener := by
  unfold join
  split
  · rename_i hmember
    constructor
    · exact Or.inl
    · rintro (h | rfl)
      · exact h
      · exact hmember
  · simp

theorem mem_foldl_join_fanOut {other : ListenerId} :
    other ∈ watching.foldl (join .fanOut) members ↔ other ∈ members ∨ other ∈ watching := by
  induction watching generalizing members with
  | nil => simp
  | cons first watching ih => rw [List.foldl_cons, ih, mem_join_fanOut, List.mem_cons, or_assoc]

theorem join_single_nil : join .single [] listener = [listener] := by
  simp [join]

theorem join_single_of_ne_nil (h : members ≠ []) : join .single members listener = members := by
  simp [join, h]

theorem foldl_join_single_of_ne_nil (h : members ≠ []) :
    watching.foldl (join .single) members = members := by
  induction watching with
  | nil => rfl
  | cons first watching ih => rw [List.foldl_cons, join_single_of_ne_nil h, ih]

theorem foldl_join_single_nil : watching.foldl (join .single) [] = watching.head?.toList := by
  cases watching with
  | nil => rfl
  | cons first watching =>
    rw [List.foldl_cons, join_single_nil]
    apply foldl_join_single_of_ne_nil
    simp

theorem nodup_join (h : members.Nodup) : (join policy members listener).Nodup := by
  unfold join
  split
  · exact h
  · rename_i habsent
    split
    · exact h
    · apply List.Nodup.append h
      · exact List.nodup_singleton listener
      · simpa using habsent

theorem nodup_foldl_join (h : members.Nodup) : (watching.foldl (join policy) members).Nodup := by
  induction watching generalizing members with
  | nil => exact h
  | cons first watching ih => exact ih (nodup_join h)

theorem foldl_join_of_subset (h : watching ⊆ members) :
    watching.foldl (join policy) members = members := by
  induction watching with
  | nil => rfl
  | cons first watching ih =>
    obtain ⟨hfirst, hrest⟩ := List.cons_subset.mp h
    rw [List.foldl_cons, join, if_pos hfirst]
    exact ih hrest

end Policies

section Holding

variable {policy : ListenerPolicy} {members watching : List ListenerId} {listener : ListenerId}

theorem holds_foldl_join_nil : Holds policy (watching.foldl (join policy) []) watching := by
  constructor
  · exact nodup_foldl_join List.nodup_nil
  · rintro rfl listener
    simp [mem_foldl_join_fanOut]
  · rintro rfl
    exact foldl_join_single_nil

theorem Holds.subset (h : Holds policy members watching) : members ⊆ watching := by
  intro listener hlistener
  cases policy with
  | fanOut => exact (h.fanOut rfl listener).mp hlistener
  | single =>
    rw [h.single rfl, Option.mem_toList] at hlistener
    exact List.mem_of_mem_head? hlistener

theorem Holds.foldl_join (h : Holds policy members watching) :
    watching.foldl (join policy) members = members := by
  cases policy with
  | fanOut =>
    apply foldl_join_of_subset
    intro listener hlistener
    exact (h.fanOut rfl listener).mpr hlistener
  | single =>
    cases watching with
    | nil => rfl
    | cons first watching =>
      apply foldl_join_single_of_ne_nil
      simp [h.single rfl]

theorem Holds.join (h : Holds policy members watching) :
    Holds policy (join policy members listener) (watching ++ [listener]) := by
  constructor
  · exact nodup_join h.nodup
  · rintro rfl other
    rw [mem_join_fanOut, h.fanOut rfl, List.mem_append, List.mem_singleton]
  · rintro rfl
    rw [h.single rfl]
    cases watching with
    | nil => exact join_single_nil
    | cons first watching =>
      apply join_single_of_ne_nil
      simp

theorem Holds.relieve {before after : List ListenerId}
    (h : Holds policy members (before ++ listener :: after)) (holdest : listener ∉ before) :
    Holds policy (relieve policy members listener (before ++ after)) (before ++ after) := by
  constructor
  · unfold Registry.relieve
    split
    · exact nodup_foldl_join (h.nodup.filter _)
    · exact h.nodup
  · rintro rfl other
    have hmem := h.fanOut rfl
    have hmember : listener ∈ members := (hmem listener).mpr (by simp)
    simp only [Registry.relieve, hmember, if_true, mem_foldl_join_fanOut, List.mem_filter, hmem]
    by_cases hother : other = listener
    · simp [hother]
    · simp only [List.mem_append, List.mem_cons, hother, false_or, ne_eq, not_false_eq_true,
        decide_true, and_true]
      tauto
  · rintro rfl
    have hmembers := h.single rfl
    unfold Registry.relieve
    cases before with
    | nil =>
      have hmember : listener ∈ members := by simp [hmembers]
      have hleft : members.filter (fun member => member ≠ listener) = [] := by simp [hmembers]
      simp only [hmember, if_true, hleft, List.nil_append, List.not_mem_nil, not_false_eq_true,
        decide_true, List.filter_true]
      exact foldl_join_single_nil
    | cons first before =>
      -- Whoever leaves has been waiting behind the oldest, and nobody takes over.
      have hother : listener ∉ members := by
        rw [hmembers]
        simp only [List.cons_append, List.head?_cons, Option.toList_some, List.mem_singleton]
        rintro rfl
        exact holdest List.mem_cons_self
      rw [if_neg hother, hmembers]
      rfl

end Holding

end CatalogSync.Registry
