namespace CatalogSync

/-- Where a value of type `s` sits inside a state of type `σ`. -/
structure Part (σ s : Type) where
  get : σ → s
  set : s → σ → σ

namespace Part

variable {σ s t α : Type}

/-- The whole as a part of itself. -/
def whole : Part σ σ := ⟨id, fun new _ => new⟩

/-- A part of a part. -/
def comp (outer : Part σ s) (inner : Part s t) : Part σ t where
  get := fun state => inner.get (outer.get state)
  set := fun new state => outer.set (inner.set new (outer.get state)) state

/-- The item at a place of a list, or a default if the list is shorter. -/
def item [Inhabited s] (outer : Part σ (List s)) (index : Nat) : Part σ s where
  get := fun state => ((outer.get state)[index]?).getD default
  set := fun new state => outer.set ((outer.get state).set index new) state

/-- Acts on the part. -/
def lift (part : Part σ s) (action : StateM s α) : StateM σ α := fun state =>
  let (answer, new) := action (part.get state)
  (answer, part.set new state)

end Part

end CatalogSync
