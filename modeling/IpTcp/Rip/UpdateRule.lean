import IpTcp.Network.NodeSteps

/-! The update rule of `RIPHandler` against the rule of distance-vector routing. The handler skips
an entry at infinity before it looks at the route, so a neighbour's withdrawal of a route that goes
through it is not heard. -/

set_option autoImplicit false

namespace IpTcp.Rip

open Lib Lib.Bytes Network
open Tcp (Netstack)

/-- What a response from `n` is to make of the routes. The first of the cases of a listed
destination is a route through `n`, the second one that is worse or missing. -/
structure FollowsRule (n : IntIP) (now : Time) (entries : List RipEntry)
    (before after : GoMap IntIP FwdTableEntry) : Prop where
  unlisted : ∀ d, (∀ entry ∈ entries, entry.destIP ≠ d) → after.get d = before.get d
  through : ∀ entry ∈ entries, ∀ old, before.get entry.destIP = some old → old.next = n →
    (entry.cost.toNat + 1 < 16 →
      after.get entry.destIP = some (createFwdTableEntry n (entry.cost + 1) now)) ∧
    (16 ≤ entry.cost.toNat + 1 → ∀ new, after.get entry.destIP = some new → new.next ≠ n)
  better : ∀ entry ∈ entries, entry.cost.toNat + 1 < 16 →
    (before.get entry.destIP = none ∨
      ∃ old, before.get entry.destIP = some old ∧ old.next ≠ n ∧ entry.cost.toNat + 1 < old.cost.toNat) →
    after.get entry.destIP = some (createFwdTableEntry n (entry.cost + 1) now)
  otherwise : ∀ entry ∈ entries, (∀ old, before.get entry.destIP = some old → old.next ≠ n) →
    (16 ≤ entry.cost.toNat + 1 ∨
      ∃ old, before.get entry.destIP = some old ∧ old.cost.toNat ≤ entry.cost.toNat + 1) →
    after.get entry.destIP = before.get entry.destIP

def NoWithdrawal (n : IntIP) (entries : List RipEntry) (before : GoMap IntIP FwdTableEntry) : Prop :=
  ∀ entry ∈ entries, ∀ old, before.get entry.destIP = some old → old.next = n →
    entry.cost.toNat + 1 < 16

theorem verdict_taken_iff {entryMap : GoMap IntIP FwdTableEntry} {n : IntIP} {entry : RipEntry}
    (finite : entry.cost ≤ infinity) :
    verdict entryMap n entry ≠ .ignore ↔ entry.cost.toNat + 1 < 16 ∧
      ∀ old, entryMap.get entry.destIP = some old →
        old.next = n ∨ entry.cost.toNat + 1 < old.cost.toNat := by
  have count := toNat_succ finite
  have sixteen : infinity.toNat = 16 := rfl
  unfold verdict
  dsimp only
  by_cases infinite : entry.cost + 1 ≥ infinity
  · have high : 16 ≤ entry.cost.toNat + 1 := by
      rw [← count, ← sixteen]
      exact UInt32.le_iff_toNat_le.mp infinite
    rw [if_pos infinite]
    simp only [ne_eq, not_true_eq_false, false_iff, not_and]
    intro low
    omega
  · have low : entry.cost.toNat + 1 < 16 := by
      rw [← count, ← sixteen]
      exact UInt32.lt_iff_toNat_lt.mp (UInt32.not_le.mp infinite)
    rw [if_neg infinite]
    cases present : entryMap.get entry.destIP with
    | none => simp [low]
    | some current =>
        simp only [low, true_and, Option.some.injEq, forall_eq']
        have less : entry.cost + 1 < current.cost ↔ entry.cost.toNat + 1 < current.cost.toNat := by
          rw [UInt32.lt_iff_toNat_lt, count]
        have greater : entry.cost + 1 > current.cost ↔ current.cost.toNat < entry.cost.toNat + 1 := by
          rw [gt_iff_lt, UInt32.lt_iff_toNat_lt, count]
        have equal : entry.cost + 1 = current.cost ↔ entry.cost.toNat + 1 = current.cost.toNat := by
          rw [← UInt32.toNat_inj, count]
        rw [← less]
        by_cases through : current.next = n
        · -- through `n` the three comparisons leave no gap
          subst through
          rcases Nat.lt_trichotomy (entry.cost.toNat + 1) current.cost.toNat with below | same | above
          · simp [less.mpr below]
          · simp [equal.mpr same]
          · simp [greater.mpr above]
        · simp [through, Ne.symm through, eq_comm]

section
variable {n : IntIP} {now : Time} {entries : List RipEntry} {before : GoMap IntIP FwdTableEntry}

theorem followsRule_iff (finite : ∀ entry ∈ entries, entry.cost ≤ infinity)
    (once : (entries.map RipEntry.destIP).Nodup) :
    FollowsRule n now entries before (processEntries n now before entries).1 ↔
      NoWithdrawal n entries before := by
  constructor
  · intro rule entry member old present through
    by_contra high
    -- the entry was skipped, so the route still goes through `n`
    have ignored : verdict before n entry = .ignore := by
      by_contra taken
      exact high ((verdict_taken_iff (finite entry member)).mp taken).1
    have kept : (processEntries n now before entries).1.get entry.destIP = some old := by
      rw [processEntries_nodup once member, if_pos ignored, present]
    exact (rule.through entry member old present through).2 (Nat.le_of_not_lt high) old kept through
  · intro withdrawn
    have taken : ∀ entry ∈ entries, verdict before n entry ≠ .ignore →
        (processEntries n now before entries).1.get entry.destIP =
          some (createFwdTableEntry n (entry.cost + 1) now) := by
      intro entry member decided
      rw [processEntries_nodup once member, if_neg decided]
    refine ⟨?_, ?_, ?_, ?_⟩
    · intro d unlisted
      exact processEntries_ignored fun entry member about => absurd about (unlisted entry member)
    · intro entry member old present through
      have low := withdrawn entry member old present through
      refine ⟨fun _ => taken entry member ?_, fun high => absurd low (Nat.not_lt_of_le high)⟩
      apply (verdict_taken_iff (finite entry member)).mpr
      refine ⟨low, fun current found => ?_⟩
      cases present.symm.trans found
      exact Or.inl through
    · intro entry member low vacant
      apply taken entry member
      apply (verdict_taken_iff (finite entry member)).mpr
      refine ⟨low, fun current found => ?_⟩
      rcases vacant with absent | ⟨old, present, _, cheaper⟩
      · rw [found] at absent
        cases absent
      · cases present.symm.trans found
        exact Or.inr cheaper
    · intro entry member elsewhere closed
      rw [processEntries_nodup once member, if_pos]
      by_contra decided
      obtain ⟨low, cheaper⟩ := (verdict_taken_iff (finite entry member)).mp decided
      rcases closed with high | ⟨old, present, dear⟩
      · omega
      · rcases cheaper old present with through | less
        · exact elsewhere old present through
        · omega

end

section
variable [Netstack] [Ipv4]

/-- The table after a response that lists each destination at most once follows the rule exactly
if no entry at infinity is about a route through its sender. -/
theorem update_rule_iff (ft : FwdTable) (order : Order) (now : Time) (n : IntIP) {rawMsg : List Byte}
    {ripPacket : RipPacket} (decoded : unmarshalRipPacket rawMsg = some ripPacket)
    (response : ripPacket.command = commandResponse)
    (once : (ripPacket.entries.map RipEntry.destIP).Nodup) :
    FollowsRule n now ripPacket.entries ft.entryMap (ripHandler ft order now n rawMsg).table.entryMap ↔
      NoWithdrawal n ripPacket.entries ft.entryMap := by
  have learned : (ripHandler ft order now n rawMsg).table.entryMap =
      (processEntries n now ft.entryMap ripPacket.entries).1 := by
    have other : commandResponse ≠ commandRequest := by decide
    simp only [ripHandler, decoded, response, other, if_false, afterSends]
  rw [learned]
  exact followsRule_iff (unmarshal_some decoded).2.1 once

end

section
attribute [local instance] Netstack.standard Ipv4.linux

def aboutNine (cost : UInt32) : RipPacket where
  command := commandResponse
  entries := [{ cost := cost, destIP := 0x0a000009, mask := 0xffffffff }]

theorem update_rule_dearer :
    announcedTable.entryMap.get 0x0a000009 = some (createFwdTableEntry linkToNeighbor.destIp 2 0) ∧
      FollowsRule linkToNeighbor.destIp 7 (aboutNine 4).entries announcedTable.entryMap
        (ripHandler announcedTable ⟨[], [], []⟩ 7 linkToNeighbor.destIp (aboutNine 4).marshal).table.entryMap := by
  refine ⟨by decide +kernel, ?_⟩
  apply (update_rule_iff announcedTable ⟨[], [], []⟩ 7 linkToNeighbor.destIp
    (show unmarshalRipPacket (aboutNine 4).marshal = some (aboutNine 4) by decide +kernel) rfl
    (by decide)).mpr
  intro entry member old _ _
  rw [List.mem_singleton.mp member]
  decide

/-- The neighbour withdraws 10.0.0.9, and the route through it stays. -/
theorem withdrawal_ignored :
    announcedTable.entryMap.get 0x0a000009 = some (createFwdTableEntry linkToNeighbor.destIp 2 0) ∧
    unmarshalRipPacket (aboutNine 16).marshal = some (aboutNine 16) ∧
    (ripHandler announcedTable ⟨[], [], []⟩ 7 linkToNeighbor.destIp (aboutNine 16).marshal).table.entryMap.get
      0x0a000009 = some (createFwdTableEntry linkToNeighbor.destIp 2 0) ∧
    ¬ FollowsRule linkToNeighbor.destIp 7 (aboutNine 16).entries announcedTable.entryMap
      (ripHandler announcedTable ⟨[], [], []⟩ 7 linkToNeighbor.destIp (aboutNine 16).marshal).table.entryMap := by
  have before : announcedTable.entryMap.get 0x0a000009 =
      some (createFwdTableEntry linkToNeighbor.destIp 2 0) := by decide +kernel
  have after : (ripHandler announcedTable ⟨[], [], []⟩ 7 linkToNeighbor.destIp
      (aboutNine 16).marshal).table.entryMap.get 0x0a000009 =
        some (createFwdTableEntry linkToNeighbor.destIp 2 0) := by decide +kernel
  refine ⟨before, by decide +kernel, after, fun rule => ?_⟩
  exact (rule.through _ (List.mem_singleton_self _) _ before rfl).2 (by decide) _ after rfl

end

end IpTcp.Rip
