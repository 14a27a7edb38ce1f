import IpTcp.Network.FwdTable
import IpTcp.Rip.Packet

/-! What `rip.go` does with the forwarding table: responses with poisoned reverse, the update
rule with its triggered updates, expiry, periodic updates and the first requests. -/

set_option autoImplicit false

namespace IpTcp.Rip

open Lib Lib.Bytes Network
open Tcp (Netstack)

def ripProtocolNum : UInt8 := 200
def entryStaleAfter : Time := 12 * second

/-! ## The update rule -/

def ripEntry (neighborIP : IntIP) (route : IntIP × FwdTableEntry) : RipEntry where
  cost := if route.2.next = neighborIP then infinity else route.2.cost
  destIP := route.1
  mask := route.2.mask

def response (ft : FwdTable) (order : Order) (neighborIP : IntIP) : RipPacket where
  command := commandResponse
  entries := (ft.entryMap.range order.entries).map (ripEntry neighborIP)

inductive Verdict where
  /-- The route is taken, and announced. -/
  | update
  /-- The route is known already, and becomes young again. -/
  | refresh
  | ignore
  deriving DecidableEq, Repr

def verdict (entryMap : GoMap IntIP FwdTableEntry) (srcIP : IntIP) (entry : RipEntry) : Verdict :=
  let newCost := entry.cost + 1
  if newCost ≥ infinity then .ignore
  else
    match entryMap.get entry.destIP with
    | none => .update
    | some current =>
        if newCost < current.cost then .update
        else if newCost > current.cost ∧ srcIP = current.next then .update
        else if newCost = current.cost ∧ current.next = srcIP then .refresh
        else .ignore

/-- One entry of the loop of `RIPHandler`, on the routes and the list `updatedEntries`. -/
def processEntry (srcIP : IntIP) (now : Time)
    (routes : GoMap IntIP FwdTableEntry × List RipEntry) (entry : RipEntry) :
    GoMap IntIP FwdTableEntry × List RipEntry :=
  let newCost := entry.cost + 1
  let newFwdTableEntry := createFwdTableEntry srcIP newCost now
  match verdict routes.1 srcIP entry with
  | .update =>
      (routes.1.insert entry.destIP newFwdTableEntry, routes.2 ++ [{ entry with cost := newCost }])
  | .refresh => (routes.1.insert entry.destIP newFwdTableEntry, routes.2)
  | .ignore => routes

def processEntries (srcIP : IntIP) (now : Time) (entryMap : GoMap IntIP FwdTableEntry)
    (entries : List RipEntry) : GoMap IntIP FwdTableEntry × List RipEntry :=
  entries.foldl (processEntry srcIP now) (entryMap, [])

def triggeredTo (ft : FwdTable) (order : Order) (srcIP : IntIP) : List IntIP :=
  ((ft.ipInterfaces.range order.interfaces).filter fun (destIP, inter) =>
    ¬ (destIP = srcIP ∨ inter.state = .down)).map Prod.fst

/-! ## The periodic tasks -/

def stale (now : Time) (entry : FwdTableEntry) : Bool :=
  decide (now - entry.lastUpdatedTime > entryStaleAfter) || decide (entry.cost ≥ infinity)

def periodicExpiry (ft : FwdTable) (order : Order) (now : Time) : FwdTable :=
  let toDelete := ((ft.entryMap.range order.entries).filter fun route => stale now route.2).map Prod.fst
  { ft with entryMap := toDelete.foldl (fun entryMap destIP => entryMap.erase destIP) ft.entryMap }

variable [Netstack] [Ipv4]

def sendRIPResponse (ft : FwdTable) (order : Order) (neighborIP : IntIP) : SendResult :=
  ft.sendMsgToDestIP order neighborIP ripProtocolNum (response ft order neighborIP).marshal

def afterSends (ft : FwdTable) (locks : List LockOp) (results : List SendResult) : Outcome where
  -- The sends of an operation that holds `Lock`; a panic takes the node down.
  table := ft
  sent := (sendAll results).1
  locks := locks
  returned := if (sendAll results).2 then none else some none

/-- `RIPHandler`, with the source address of the header it is given. A message that cannot be
read ends the node in `log.Fatalln`. A triggered update is sent whether or not it has entries. -/
def ripHandler (ft : FwdTable) (order : Order) (now : Time) (srcIP : IntIP) (rawMsg : List Byte) :
    Outcome :=
  match unmarshalRipPacket rawMsg with
  | none => { table := ft, sent := [], locks := [], returned := none }
  | some ripPacket =>
      if ripPacket.command = commandRequest then
        afterSends ft [.rLock, .rUnlock] [sendRIPResponse ft order srcIP]
      else
        let (entryMap, updatedEntries) := processEntries srcIP now ft.entryMap ripPacket.entries
        let ft := { ft with entryMap := entryMap }
        let p : RipPacket := { command := commandResponse, entries := updatedEntries }
        afterSends ft [.lock, .unlock] ((triggeredTo ft order srcIP).map fun destIP =>
          ft.sendMsgToDestIP order destIP ripProtocolNum p.marshal)

def periodicUpdate (ft : FwdTable) (order : Order) : Outcome :=
  afterSends ft [.rLock, .rUnlock]
    (((ft.ipInterfaces.range order.interfaces).filter fun (_, inter) => inter.state = .up).map
      fun (_, inter) => sendRIPResponse ft order inter.destIp)

def ripInit (ft : FwdTable) (order : Order) : Outcome :=
  let ft := ft.registerHandlerSafe ripProtocolNum .rip
  let ripPacket : RipPacket := { command := commandRequest, entries := [] }
  afterSends ft [.lock, .unlock, .rLock, .rUnlock]
    ((ft.ipInterfaces.range order.interfaces).map fun (destIp, _) =>
      ft.sendMsgToDestIP order destIp ripProtocolNum ripPacket.marshal)

end IpTcp.Rip
