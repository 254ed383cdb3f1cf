import CatalogSync.Ingest.Recording

namespace CatalogSync

structure ScriptedAdapter where
  calls : List AdapterCall
  script : List (Outcome IngestError String)

namespace ScriptedAdapter

def start (script : List (Outcome IngestError String)) : ScriptedAdapter := ⟨[], script⟩

instance : Inhabited ScriptedAdapter := ⟨start []⟩

/-- Logs a call and takes the next entry of the script. -/
def answer (call : AdapterCall) : StateM ScriptedAdapter (Outcome IngestError String) := fun s =>
  let calls := s.calls ++ [call]
  match s.script with
  | [] => (.ok "default", ⟨calls, []⟩)
  | outcome :: script => (outcome, ⟨calls, script⟩)

/-- An answer without its id. -/
def withoutId : Outcome IngestError String → Outcome IngestError Unit
  | .ok _ => .ok ()
  | .error e => .error e
  | .panicked => .panicked

def adapter {σ : Type} (cell : Part σ ScriptedAdapter) : Adapter σ where
  create := fun resource => Reading.onWorld (cell.lift (answer (.create resource.location)))
  update := fun resource id => Reading.onWorld (cell.lift (answer (.update resource.location id)))
  delete := fun id => do return withoutId (← cell.lift (answer (.delete id)))

end ScriptedAdapter

end CatalogSync
