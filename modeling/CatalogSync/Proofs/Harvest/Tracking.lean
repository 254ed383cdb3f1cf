import CatalogSync.Proofs.Harvest.InStep
import CatalogSync.Proofs.Snapshot.Held

namespace CatalogSync.Engine

open Site (never Calls Effect)

variable {locate : String → String → String}

section Deliveries

variable {root location : String} {changes : List Change} {site last : Site}
  {result : Except StoreError Unit}

theorem Deliveries.result_eq_ok (h : Deliveries locate never root changes site result last) :
    result = .ok () := by
  induction h with
  | done => rfl
  | aborted _ _ _ _ _ hcall =>
    have hok := Site.ok_of_callback_never hcall
    cases hok
  | next _ _ _ _ _ _ _ _ ih => exact ih

theorem Deliveries.untouched (h : Deliveries locate never root changes site result last)
    (hne : ∀ change ∈ changes,
      correlationId location ≠ correlationId (locate root change.path)) :
    ∃ calls, Calls site last calls ∧ Effect location site last calls none := by
  induction h with
  | done => exact ⟨[], (List.append_nil _).symm, .refl⟩
  | aborted change _ _ _ _ hcall =>
    exact Site.effect_of_callback_ne (hne change List.mem_cons_self) hcall
  | next change _ _ _ _ _ hcall _ ih =>
    obtain ⟨first, hfirst, heffect⟩ :=
      Site.effect_of_callback_ne (hne change List.mem_cons_self) hcall
    obtain ⟨rest, hrest, heffect'⟩ := ih fun other hother =>
      hne other (List.mem_cons_of_mem _ hother)
    refine ⟨first ++ [] ++ rest, ?_, heffect.between .refl heffect'⟩
    rw [List.append_nil]
    exact hfirst.append hrest

theorem Deliveries.mirrors (h : Deliveries locate never root changes site result last)
    (hsite : site.WellFormed) (hmirrors : site.Mirrors) (hfresh : last.supply.IsFresh) :
    last.Mirrors := by
  have hstep : ∀ change ∈ changes, ∀ before answer, before.WellFormed → before.Mirrors →
      Site.Callback never before (locate root change.path) change.kind answer →
      answer.2.supply.IsFresh → answer.2.Mirrors := by
    intro _ _ _ _ hbefore hmapped hcall hissued
    exact Site.mirrors_of_callback hbefore hmapped hcall hissued
  exact h.keeps hfresh hstep hsite hmirrors

/-- What a delivery does about the path of one of its changes is what the call about it does. -/
theorem Deliveries.effect (h : Deliveries locate never root changes site result last)
    (hsite : site.WellFormed) (hmirrors : site.Mirrors) (hfresh : last.supply.IsFresh)
    (hbehavior : site.adapter.behavior = .succeed) (hpaths : (changes.map Change.path).Nodup)
    (hkeys : ∀ change ∈ changes, ∀ other ∈ changes, correlationId (locate root change.path) =
      correlationId (locate root other.path) → change.path = other.path)
    {change : Change} (hchange : change ∈ changes) :
    ∃ calls, Calls site last calls ∧
      Effect (locate root change.path) site last calls (some change.kind) := by
  obtain rfl := h.result_eq_ok
  obtain ⟨before, after, site', middle, rfl, hfirst, hcall, hrest⟩ := h.split hchange
  have hothers := key_ne_of_append hpaths hkeys
  obtain ⟨first, hfirstCalls, hfirstEffect⟩ := hfirst.untouched fun other hother =>
    hothers other (List.mem_append_left _ hother)
  obtain ⟨rest, hrestCalls, hrestEffect⟩ := hrest.untouched fun other hother =>
    hothers other (List.mem_append_right _ hother)
  have hissued : site'.supply.issued ≤ last.supply.issued :=
    Nat.le_trans (Site.issued_le_of_callback hcall) hrest.issued_le
  have hmapped := hfirst.mirrors hsite hmirrors (hfresh.mono hissued)
  obtain ⟨calls, hcalls, heffect⟩ :=
    Site.effect_of_callback hmapped (hfirst.behavior.trans hbehavior) hcall
  exact ⟨first ++ calls ++ rest, (hfirstCalls.append hcalls).append hrestCalls,
    hfirstEffect.between heffect hrestEffect⟩

end Deliveries

section Step

variable {root : String} {paths : Set String} {past : List Observed}
  {held : String → Option Fingerprint} {site last : Site} {before : Option Snapshot}
  {listing : List ListingEntry} {observed : Observed}

theorem path_mem_of_change
    (hbefore : ∀ path fingerprint, fingerprint? before path = some fingerprint → path ∈ paths)
    (hlisted : ∀ path ∈ (Snapshot.ofListing listing).paths, path ∈ paths) {change : Change}
    (hchange : change ∈ (diff before listing).changes) : change.path ∈ paths := by
  rw [mem_diff_iff] at hchange
  rcases (seen_of_changeKind? hchange).1 with hknown | hseen
  · obtain ⟨known, hknown⟩ := Option.ne_none_iff_exists'.mp hknown
    exact hbefore change.path known hknown
  · obtain ⟨seen, hseen⟩ := Option.ne_none_iff_exists'.mp hseen
    exact hlisted _ ((Snapshot.mem_paths_iff _ _).mpr ⟨seen, hseen⟩)

theorem effect_of_path (hkeys : Set.InjOn (fun path => correlationId (locate root path)) paths)
    (hbefore : ∀ path fingerprint, fingerprint? before path = some fingerprint → path ∈ paths)
    (hlisted : ∀ path ∈ (Snapshot.ofListing listing).paths, path ∈ paths)
    (hsite : site.WellFormed) (hmirrors : site.Mirrors) (hfresh : last.supply.IsFresh)
    (hbehavior : site.adapter.behavior = .succeed)
    (h : Deliveries locate never root (diff before listing).changes site (.ok ()) last)
    {path : String} (hpath : path ∈ paths) :
    Effect (locate root path) site last (last.adapter.calls.drop site.adapter.calls.length)
      (changeKind? (fingerprint? before path) ((Snapshot.ofListing listing).get? path)) := by
  have hmem : ∀ change ∈ (diff before listing).changes, change.path ∈ paths := by
    intro change hchange
    exact path_mem_of_change hbefore hlisted hchange
  have heffect : ∃ calls, Calls site last calls ∧ Effect (locate root path) site last calls
      (changeKind? (fingerprint? before path) ((Snapshot.ofListing listing).get? path)) := by
    cases hkind : changeKind? (fingerprint? before path)
        ((Snapshot.ofListing listing).get? path) with
    | none =>
      refine h.untouched ?_
      intro change hchange hsame
      obtain rfl := hkeys hpath (hmem change hchange) hsame
      rw [mem_diff_iff, hkind] at hchange
      cases hchange
    | some kind =>
      refine h.effect hsite hmirrors hfresh hbehavior (nodup_paths_diff before listing) ?_
        ((mem_diff_iff before listing ⟨kind, path⟩).mpr hkind)
      intro change hchange other hother hsame
      exact hkeys (hmem change hchange) (hmem other hother) hsame
  obtain ⟨calls, hcalls, heffect⟩ := heffect
  rw [hcalls, List.drop_left]
  exact heffect

theorem held_of_quiet {path : String} {held? : Option Fingerprint}
    (h : Held locate root past site path held?)
    (hrow : last.row? (correlationId (locate root path)) =
      site.row? (correlationId (locate root path)))
    (hquiet : ∀ call ∈ observed.calls, call.location? ≠ some (locate root path)) :
    Held locate root (past ++ [observed]) last path held? := by
  cases held? with
  | none => exact hrow.trans h
  | some fingerprint =>
    obtain ⟨row, writer, hmapped, hlocation, hwriter, hseen⟩ := h
    refine ⟨row, writer, hrow.trans hmapped, hlocation, ?_, hseen⟩
    rw [lastWriter?_concat, writes_eq_false hquiet]
    exact hwriter

theorem held_of_effect {path : String} {known? held? : Option Fingerprint}
    {kind? : Option ChangeKind} (h : Held locate root past site path held?)
    (hkind : changeKind? known? (observed.view.get? path) = kind?)
    (heffect : Effect (locate root path) site last observed.calls kind?) :
    Held locate root (past ++ [observed]) last path
      (heldAfter known? (observed.view.get? path) held?) := by
  unfold heldAfter
  rw [hkind]
  cases heffect with
  | untouched _ hwhy hrow hquiet =>
    have hstays := held_of_quiet h hrow hquiet
    rcases hwhy with rfl | ⟨rfl, hmapped⟩ | ⟨rfl, hunmapped⟩
    · exact hstays
    · cases held? with
      | none => exact absurd h hmapped
      | some fingerprint => exact hstays
    · cases held? with
      | none => exact hstays
      | some fingerprint =>
        obtain ⟨row, -, hmapped, -⟩ := h
        rw [hunmapped] at hmapped
        cases hmapped
  | created row hrow hafter hlocation hcall =>
    cases held? with
    | some fingerprint =>
      obtain ⟨row', -, hmapped, -⟩ := h
      rw [hrow] at hmapped
      cases hmapped
    | none =>
      obtain ⟨seen, hseen⟩ := (seen_of_changeKind? hkind).2 (by decide)
      rw [hseen]
      refine ⟨row, observed, hafter, hlocation, ?_, hseen⟩
      rw [lastWriter?_concat, writes_eq_true (Or.inl hcall)]
      rfl
  | updated row row' hrow hafter hlocation hid hcall =>
    cases held? with
    | none =>
      rw [Held, hrow] at h
      cases h
    | some fingerprint =>
      obtain ⟨seen, hseen⟩ := (seen_of_changeKind? hkind).2 (by decide)
      rw [hseen]
      refine ⟨row', observed, hafter, hlocation, ?_, hseen⟩
      rw [lastWriter?_concat, hid, writes_eq_true (Or.inr hcall)]
      rfl
  | removed hafter => exact hafter

theorem tracks_of_deliveries
    (hkeys : Set.InjOn (fun path => correlationId (locate root path)) paths)
    (hbefore : ∀ path fingerprint, fingerprint? before path = some fingerprint → path ∈ paths)
    (hlisted : ∀ path ∈ (Snapshot.ofListing listing).paths, path ∈ paths)
    (hsite : site.WellFormed) (hfresh : last.supply.IsFresh)
    (hbehavior : site.adapter.behavior = .succeed)
    (h : Tracks locate root paths past held site)
    (hdelivered : Deliveries locate never root (diff before listing).changes site (.ok ()) last)
    (hcalls : observed.calls = last.adapter.calls.drop site.adapter.calls.length)
    (hview : observed.view = .ofListing listing) :
    Tracks locate root paths (past ++ [observed])
      (fun path => heldAfter (fingerprint? before path) (observed.view.get? path) (held path))
      last := by
  refine ⟨hdelivered.mirrors hsite h.mirrors hfresh, ?_, ?_, ?_⟩
  · intro key row hrow
    by_contra hnone
    push Not at hnone
    have hstays : last.row? key = site.row? key := by
      refine hdelivered.row?_of_ne ?_
      intro change hchange
      exact hnone change.path (path_mem_of_change hbefore hlisted hchange)
    obtain ⟨path, hpath, hkey⟩ := h.keys key row (hstays.symm.trans hrow)
    exact hnone path hpath hkey
  · intro path hpath
    refine held_of_effect (h.holds path hpath) rfl ?_
    rw [hcalls, hview]
    exact effect_of_path hkeys hbefore hlisted hsite h.mirrors hfresh hbehavior hdelivered hpath
  · intro path fingerprint hheld
    by_contra hpath
    have hunseen : observed.view.get? path = none := by
      rw [hview]
      exact get?_eq_none_of_not_mem fun hmem => hpath (hlisted path hmem)
    have hunheld : held path = none := by
      by_contra hsome
      obtain ⟨fingerprint, hsome⟩ := Option.ne_none_iff_exists'.mp hsome
      exact hpath (h.listed path fingerprint hsome)
    rw [hunseen, hunheld, heldAfter_none_none] at hheld
    cases hheld

end Step

end CatalogSync.Engine
