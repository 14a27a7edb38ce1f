import IpTcp.Internet.Routes

/-! The network with something written down about every datagram when it is sent. That does not
change what the network does. -/

set_option autoImplicit false

namespace IpTcp.Internet

open Lib Lib.Bytes Network Rip
open Tcp (Netstack)

structure Stamped (Host Stamp : Type) where
  tables : Host → FwdTable
  running : Host → Bool
  transit : List (Stamp × Host × List Byte)

namespace Stamped

variable {Host Stamp : Type}

def net (stamped : Stamped Host Stamp) : Net Host where
  tables := stamped.tables
  running := stamped.running
  transit := stamped.transit.map Prod.snd

def ofNet (net : Net Host) (stamp : Stamp) : Stamped Host Stamp where
  tables := net.tables
  running := net.running
  transit := net.transit.map fun datagram => (stamp, datagram)

def stampOf (stamped : Stamped Host Stamp) : Event Host → Option Stamp
  | .net (.deliver index _ _) => (stamped.transit[index]?).map Prod.fst
  | _ => none

theorem occurs_deliver {stamped : Stamped Host Stamp} {index : Nat} {order : Order} {now : Time}
    {sent : Stamp} {host : Host} {packet : List Byte} (found : stamped.transit[index]? = some (sent, host, packet)) :
    occurs stamped.net (.net (.deliver index order now)) =
      if stamped.running host then some (host, order, .handlePacketSafe now packet) else none := by
  simp only [occurs, net, List.getElem?_map, found, Option.map_some, Option.bind_some]
  rfl

variable [DecidableEq Host] [Netstack] [Ipv4] (topology : Topology Host) (stamp : NodeEvent → Stamp)

def perform (stamped : Stamped Host Stamp) (host : Host) (order : Order) (event : NodeEvent) :
    Stamped Host Stamp :=
  let outcome := (stamped.tables host).perform order event
  { tables := Function.update stamped.tables host outcome.table
    running := Function.update stamped.running host outcome.returned.isSome
    transit := stamped.transit ++ outcome.sent.map fun transmission =>
      (stamp event, topology.receiver host transmission, transmission.buffer) }

def step (stamped : Stamped Host Stamp) : Event Host → Option (Stamped Host Stamp)
  | .call host order call =>
      if stamped.running host then some (stamped.perform topology stamp host order call.event) else none
  | .net (.task host order task) =>
      if stamped.running host then some (stamped.perform topology stamp host order task.event) else none
  | .net (.deliver index order now) =>
      (stamped.transit[index]?).map fun (_, host, packet) =>
        let rest := { stamped with transit := stamped.transit.eraseIdx index }
        if stamped.running host then
          rest.perform topology stamp host order (.handlePacketSafe now packet)
        else rest
  | .net (.lose index) =>
      (stamped.transit[index]?).map fun _ => { stamped with transit := stamped.transit.eraseIdx index }
  | .net (.duplicate index) =>
      (stamped.transit[index]?).map fun datagram => { stamped with transit := stamped.transit ++ [datagram] }

inductive Moves (stamped : Stamped Host Stamp) : Event Host → Stamped Host Stamp → Prop where
  | call (host : Host) (order : Order) (call : Call) (running : stamped.running host = true) :
      Moves stamped (.call host order call) (stamped.perform topology stamp host order call.event)
  | task (host : Host) (order : Order) (task : Task) (running : stamped.running host = true) :
      Moves stamped (.net (.task host order task)) (stamped.perform topology stamp host order task.event)
  | arrival (index : Nat) (order : Order) (now : Time) (sent : Stamp) (host : Host) (packet : List Byte)
      (found : stamped.transit[index]? = some (sent, host, packet)) (running : stamped.running host = true) :
      Moves stamped (.net (.deliver index order now))
        ({ stamped with transit := stamped.transit.eraseIdx index }.perform topology stamp host order
          (.handlePacketSafe now packet))
  | nowhere (event : Event Host) (transit : List (Stamp × Host × List Byte))
      (nothing : occurs stamped.net event = none) (among : ∀ datagram ∈ transit, datagram ∈ stamped.transit) :
      Moves stamped event { stamped with transit := transit }

variable {topology stamp} {stamped after : Stamped Host Stamp} {event : Event Host}

theorem step_moves (moves : stamped.step topology stamp event = some after) :
    Moves topology stamp stamped event after := by
  cases event with
  | call host order call =>
      obtain ⟨running, same⟩ := Option.ite_none_right_eq_some.mp moves
      cases same
      exact .call host order call running
  | net event =>
      cases event with
      | task host order task =>
          obtain ⟨running, same⟩ := Option.ite_none_right_eq_some.mp moves
          cases same
          exact .task host order task running
      | deliver index order now =>
          obtain ⟨⟨sent, host, packet⟩, found, received⟩ := Option.map_eq_some_iff.mp moves
          dsimp only at received
          split at received
          · rename_i running
            subst received
            exact .arrival index order now sent host packet found running
          · -- A datagram for a node that has ended reaches nobody.
            rename_i ended
            subst received
            refine .nowhere _ _ ?_ fun _ member => List.mem_of_mem_eraseIdx member
            rw [occurs_deliver found, if_neg ended]
      | lose index =>
          obtain ⟨_, _, rfl⟩ := Option.map_eq_some_iff.mp moves
          exact .nowhere _ _ rfl fun _ member => List.mem_of_mem_eraseIdx member
      | duplicate index =>
          obtain ⟨copy, found, rfl⟩ := Option.map_eq_some_iff.mp moves
          refine .nowhere _ _ rfl fun datagram member => ?_
          rcases List.mem_append.mp member with earlier | last
          · exact earlier
          · rw [List.mem_singleton.mp last]
            exact List.mem_of_getElem? found

theorem perform_net (stamped : Stamped Host Stamp) (host : Host) (order : Order) (event : NodeEvent) :
    (stamped.perform topology stamp host order event).net = topology.perform stamped.net host order event := by
  simp only [net, perform, Topology.perform, List.map_append, List.map_map]
  rfl

theorem step_net (moves : stamped.step topology stamp event = some after) :
    ipStep topology stamped.net event = some after.net := by
  cases event with
  | call host order call =>
      obtain ⟨running, same⟩ := Option.ite_none_right_eq_some.mp moves
      cases same
      rw [perform_net]
      exact if_pos running
  | net event =>
      cases event with
      | task host order task =>
          obtain ⟨running, same⟩ := Option.ite_none_right_eq_some.mp moves
          cases same
          rw [perform_net]
          exact if_pos running
      | deliver index order now =>
          obtain ⟨⟨sent, host, packet⟩, found, received⟩ := Option.map_eq_some_iff.mp moves
          have here : stamped.net.transit[index]? = some (host, packet) := by
            rw [net, List.getElem?_map, found]
            rfl
          have rest : stamped.net.transit.eraseIdx index = (stamped.transit.eraseIdx index).map Prod.snd := by
            rw [net, List.eraseIdx_map]
          simp only [ipStep, Topology.step, here, Option.map_some, rest]
          dsimp only at received
          split at received
          · rename_i running
            subst received
            rw [show stamped.net.running host = true from running, if_pos rfl, perform_net]
            rfl
          · rename_i ended
            subst received
            exact congrArg some (if_neg ended)
      | lose index =>
          obtain ⟨datagram, found, rfl⟩ := Option.map_eq_some_iff.mp moves
          simp only [ipStep, Topology.step, net, List.getElem?_map, found, Option.map_some, List.eraseIdx_map]
      | duplicate index =>
          obtain ⟨datagram, found, rfl⟩ := Option.map_eq_some_iff.mp moves
          simp only [ipStep, Topology.step, net, List.getElem?_map, found, Option.map_some, List.map_append,
            List.map_cons, List.map_nil]

end Stamped

instance : Fintype LoopHost := ⟨{.a, .b, .c}, fun host => by cases host <;> decide⟩

end IpTcp.Internet
