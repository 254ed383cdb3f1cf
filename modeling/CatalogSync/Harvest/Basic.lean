import CatalogSync.Config.Harvester
import CatalogSync.Lister.Basic
import CatalogSync.Listener.Basic
import CatalogSync.Snapshot.Codec

namespace CatalogSync

inductive HarvestError where
  | config (reason : ConfigError)
  | lister (reason : ListerError)
  | persistence (reason : StoreError)
  | snapshot (reason : SnapshotError)
  | notRunning (id : String)
  | listenerRejected (harvester listener reason : String)
  deriving DecidableEq, Repr

def HarvestError.message : HarvestError → String
  | config reason => "Configuration error: " ++ reason.message
  | lister reason => "Lister error: " ++ reason.message
  | persistence reason => "Persistence error: " ++ reason.message
  | snapshot reason => "Snapshot error: " ++ reason.message
  | notRunning id => "Harvester " ++ id ++ " is not running"
  | listenerRejected harvester listener reason =>
    "Harvester " ++ harvester ++ " rejected listener " ++ listener ++ ": " ++ reason

inductive HarvesterStatus where
  | stopped
  | initializing
  | polling
  deriving DecidableEq, Repr

def HarvesterStatus.text : HarvesterStatus → String
  | stopped => "Stopped"
  | initializing => "Initializing"
  | polling => "Polling"

/-- What one poll has found. -/
structure PollReport where
  created : Nat
  modified : Nat
  deleted : Nat
  /-- Calls to listeners that failed or broke down. -/
  failures : Nat
  /-- Nobody listens, so nothing was listed. -/
  idle : Bool
  deriving DecidableEq, Repr

namespace PollReport

/-- The report of a poll that has not listed anything. -/
def ofIdle : PollReport := ⟨0, 0, 0, 0, true⟩

def ofDiff (diff : Diff) (failures : Nat) : PollReport :=
  ⟨diff.count .created, diff.count .modified, diff.count .deleted, failures, false⟩

def events (report : PollReport) : Nat :=
  report.created + report.modified + report.deleted

end PollReport

/-- Listeners are told apart by number, whatever their names are. -/
abbrev ListenerId := Nat

structure Harvester where
  id : String
  config : HarvesterConfig
  /-- The key under which the snapshot of the current root is stored. -/
  snapshotKey : String
  /-- What the last completed poll has seen, or what was stored about it. -/
  snapshot : Option Snapshot
  /-- The properties of the resources of the current root. -/
  properties : Properties
  status : HarvesterStatus
  policy : ListenerPolicy
  members : List ListenerId
  /-- The interval as told to those who poll, in milliseconds. -/
  interval : Nat

namespace Harvester

/-- The namespace of snapshots in a database. -/
def snapshotNamespace : String := "harvest/snapshot"

/-- A harvester that has not been started. -/
def ofConfig (config : HarvesterConfig) : Harvester where
  id := config.id
  config := config
  snapshotKey := persistenceKey config.root
  snapshot := none
  properties := Table.empty
  status := .stopped
  policy := config.policy
  members := []
  interval := config.interval

def hasListener (h : Harvester) (listener : ListenerId) : Bool :=
  h.members.contains listener

/-- Adds a listener unless it is there. A harvester for a single listener takes no second one. -/
def register (h : Harvester) (listener : ListenerId) (name : String) :
    Except HarvestError Harvester :=
  if h.hasListener listener then .ok h
  else if h.policy = .single ∧ h.members ≠ [] then
    .error (.listenerRejected h.id name "only one listener is allowed")
  else .ok { h with members := h.members ++ [listener] }

/-- Removes a listener. -/
def unregister (h : Harvester) (listener : ListenerId) : Harvester :=
  { h with members := h.members.filter fun member => member ≠ listener }

end Harvester

end CatalogSync
