import Dockge.Data.History
import Mathlib.Logic.Function.Basic

namespace Dockge.Agents

open Data

/-! The clients of one browser connection, one for each agent. -/

structure Client where
  endpoint : String
  /-- It connects, is connected, or will connect again by itself. -/
  active : Bool := true
  renewing : Bool := false
deriving DecidableEq, Repr

/-- A call that waits: a connection for its sign-in, a removal for the database -/
structure Call where
  endpoint : String
  waiting : Bool := true
deriving DecidableEq, Repr

structure AgentManager where
  /-- The browser is still there. -/
  connected : Bool := true
  clients : List Client := []
  agentSocketList : String → Option Nat := fun _ => none
  connects : List Call := []
  removals : List Call := []
  /-- An agent was removed, and nobody has asked to connect to it since. -/
  removed : String → Bool := fun _ => false

namespace AgentManager

def changeClient (manager : AgentManager) (id : Nat) (update : Client → Client) : AgentManager :=
  { manager with clients := manager.clients.modify id update }

def Client.off (client : Client) : Client := { client with active := false }

def disconnect (manager : AgentManager) (endpoint : String) : AgentManager :=
  match manager.agentSocketList endpoint with
  | some id => manager.changeClient id Client.off
  | none => manager

/-- Every client of the list -/
def disconnectAll (manager : AgentManager) : AgentManager :=
  { manager with clients := manager.clients.zipIdx.map fun (client, id) =>
      if manager.agentSocketList client.endpoint = some id then Client.off client else client }

/-- `connect`, until it waits for the sign-in -/
def connect (manager : AgentManager) (endpoint : String) : AgentManager :=
  let manager := { manager with removed := Function.update manager.removed endpoint false }
  if endpoint = "" ∨ (manager.agentSocketList endpoint).isSome then manager
  else { manager with connects := manager.connects ++ [{ endpoint }] }

/-- `connect`, once the sign-in has an answer -/
def connectAnswered (manager : AgentManager) (call : Nat) (signedIn : Bool) : AgentManager :=
  match manager.connects[call]? with
  | some { endpoint, waiting := true } =>
      let manager := { manager with connects := manager.connects.modify call fun call => { call with waiting := false } }
      if !signedIn then manager
      else if !manager.connected || (manager.agentSocketList endpoint).isSome then manager
      else
        { manager with
          clients := manager.clients ++ [{ endpoint }]
          agentSocketList := Function.update manager.agentSocketList endpoint (some manager.clients.length) }
  | _ => manager

def remove (manager : AgentManager) (endpoint : String) : AgentManager :=
  { manager with removals := manager.removals ++ [{ endpoint }] }

/-- `remove`, once the database has answered -/
def removeAnswered (manager : AgentManager) (call : Nat) (found : Bool) : AgentManager :=
  match manager.removals[call]? with
  | some { endpoint, waiting := true } =>
      let manager := { manager with removals := manager.removals.modify call fun call => { call with waiting := false } }
      if !found then manager
      else
        let manager := manager.disconnect endpoint
        { manager with
          agentSocketList := Function.update manager.agentSocketList endpoint none
          removed := Function.update manager.removed endpoint true }
  | _ => manager

/-- `renewSession` of one client, until it waits for the sign-in -/
def renewSession (manager : AgentManager) (id : Nat) : AgentManager :=
  match manager.clients[id]? with
  | some client =>
      if client.renewing || !manager.connected then manager
      else manager.changeClient id fun client => { client with renewing := true, active := false }
  | none => manager

def renewAnswered (manager : AgentManager) (id : Nat) (signedIn : Bool) : AgentManager :=
  match manager.clients[id]? with
  | some client =>
      if client.renewing then
        let again := signedIn && manager.connected && manager.agentSocketList client.endpoint = some id
        manager.changeClient id fun client => { client with renewing := false, active := client.active || again }
      else manager
  | none => manager

end AgentManager

inductive Event where
  | connect (endpoint : String)
  | connectAnswered (call : Nat) (signedIn : Bool)
  | remove (endpoint : String)
  | removeAnswered (call : Nat) (found : Bool)
  /-- The agent asks a client to sign in again. -/
  | needAuth (id : Nat)
  /-- The agent ends the connection of a client. -/
  | serverDisconnect (id : Nat)
  | renewAnswered (id : Nat) (signedIn : Bool)
  /-- The agent says that it speaks an old protocol. -/
  | tooOld (id : Nat)
  | browserDisconnects
  | disconnectAll
deriving DecidableEq, Repr

open AgentManager

def step (manager : AgentManager) : Event → AgentManager
  | .connect endpoint => manager.connect endpoint
  | .connectAnswered call signedIn => manager.connectAnswered call signedIn
  | .remove endpoint => manager.remove endpoint
  | .removeAnswered call found => manager.removeAnswered call found
  | .needAuth id => manager.renewSession id
  | .serverDisconnect id => (manager.changeClient id Client.off).renewSession id
  | .renewAnswered id signedIn => manager.renewAnswered id signedIn
  | .tooOld id => manager.changeClient id Client.off
  | .browserDisconnects => { manager with connected := false }
  | .disconnectAll => manager.disconnectAll

end Dockge.Agents
