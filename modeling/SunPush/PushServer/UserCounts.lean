import SunPush.PushServer.UserRefusals

/-!
# The online-user statistics

`AddUser` recounts the connections at its end.  `RemoveUserByConnectID` does not,
and neither does an `AddUser` that enters a connection and then refuses its
account.
-/

namespace SunPush

namespace UserInfoManager

/-- The number of entries of the connection map. -/
def connections (users : UserInfoManager) : Nat :=
  users.mapCIDToINFO.entries.length

/-- The table with the largest number of connections it has had so far. -/
def counted : Transition.System (UserInfoManager × Nat) Call :=
  table.withHistory 0 fun peak users next => max peak (users.call next).connections

/-- The statistics are those of the table and of its history. -/
structure CountsRight (users : UserInfoManager) (peak : Nat) : Prop where
  current : users.curPlayerCount.toNat = users.connections
  largest : users.maxPlayerCount.toNat = peak

/-- The call enters no connection whose account is refused, counts no more of them than a UINT32
holds, and removes none. -/
def KeepsCounts (users : UserInfoManager) : Call → Prop
  | .addUser connectID accountID memory =>
      users.Has connectID ∨ memory = false ∨
        (accountID = 0 ∨ users.findUserByAccountID accountID = none) ∧
          users.connections + 1 < 2 ^ 32
  | .removeUserByConnectID connectID => ¬users.Has connectID
  | .updateUserByConnectID _ _ => True

/-! ## How many connections a call leaves -/

theorem not_has_iff {users : UserInfoManager} {connectID : Int} :
    ¬users.Has connectID ↔ users.findUserByConnectID connectID = none :=
  AList.lookup_eq_none.symm

theorem connections_entered {users : UserInfoManager} {connectID : Int}
    (absent : users.findUserByConnectID connectID = none) :
    (users.entered connectID).connections = users.connections + 1 := by
  have fresh : connectID ∉ users.mapCIDToINFO := not_has_iff.mpr absent
  simp only [entered, connections, AList.entries_insert_of_notMem fresh, List.length_cons]

theorem connections_removed {users : UserInfoManager} {connectID : Int} {user : Nat}
    (found : users.findUserByConnectID connectID = some user) :
    (users.removed connectID user).connections + 1 = users.connections := by
  have known : connectID ∈ users.mapCIDToINFO.keys := has_iff.mpr ⟨user, found⟩
  have shorter : (users.mapCIDToINFO.erase connectID).keys.length + 1 =
      users.mapCIDToINFO.keys.length := by
    rw [AList.keys_erase]
    exact List.length_erase_add_one known
  simpa only [removed, connections, AList.keys, List.keys, List.length_map] using shorter

theorem call_of_not_has {users : UserInfoManager} {connectID : Int}
    (absent : users.findUserByConnectID connectID = none) :
    users.call (.removeUserByConnectID connectID) = users := by
  rw [findUserByConnectID] at absent
  simp only [call, removeUserByConnectID, absent]

/-! ## Which calls keep the statistics right -/

section Counts

variable {users after : UserInfoManager} {peak : Nat}

/-- What changes neither the map nor the counters leaves the statistics right. -/
theorem CountsRight.kept (right : users.CountsRight peak) (bounded : users.connections ≤ peak)
    (connections : after.connections = users.connections)
    (current : after.curPlayerCount = users.curPlayerCount)
    (largest : after.maxPlayerCount = users.maxPlayerCount) :
    after.CountsRight (max peak after.connections) := by
  rw [connections, max_eq_left bounded]
  constructor
  · rw [current, connections]
    exact right.current
  · rw [largest]
    exact right.largest

/-- What changes the map and not the counters makes them wrong. -/
theorem CountsRight.lost (right : users.CountsRight peak)
    (connections : after.connections ≠ users.connections)
    (current : after.curPlayerCount = users.curPlayerCount) (later : Nat) :
    ¬after.CountsRight later := by
  intro still
  apply connections
  rw [← still.current, current]
  exact right.current

/-- Counting again is right as long as the number fits. -/
theorem updateCounts_countsRight_iff (largest : users.maxPlayerCount.toNat = peak) :
    users.updateCounts.CountsRight (max peak users.connections) ↔
      users.connections < 2 ^ 32 := by
  constructor
  · intro right
    have current : (UInt32.ofNat users.connections).toNat = users.connections := right.current
    rw [← current]
    exact UInt32.toNat_lt _
  · intro fits
    have current : (UInt32.ofNat users.connections).toNat = users.connections :=
      UInt32.toNat_ofNat_of_lt' fits
    refine ⟨current, ?_⟩
    change (if users.maxPlayerCount < UInt32.ofNat users.connections then
      UInt32.ofNat users.connections else users.maxPlayerCount).toNat = _
    split
    · rename_i above
      rw [UInt32.lt_iff_toNat_lt, current, largest] at above
      rw [current, max_eq_right (Nat.le_of_lt above)]
    · rename_i below
      rw [UInt32.lt_iff_toNat_lt, current, largest] at below
      rw [largest, max_eq_left (Nat.le_of_not_lt below)]

end Counts

/-- `AddUser` for an entry that is there, or has just been made. -/
theorem addUser_countsRight_iff {users base : UserInfoManager} {peak : Nat} {connectID : Int}
    {accountID : UInt32} {memory : Bool} {user : Nat} (right : users.CountsRight peak)
    (bounded : users.connections ≤ peak)
    (enters : users.enterUser connectID memory = some (user, base))
    (current : base.curPlayerCount = users.curPlayerCount)
    (largest : base.maxPlayerCount = users.maxPlayerCount) :
    (users.addUser connectID accountID memory).2.CountsRight
        (max peak (users.addUser connectID accountID memory).2.connections) ↔
      base.connections = users.connections ∨
        (accountID = 0 ∨ base.findUserByAccountID accountID = none) ∧
          base.connections < 2 ^ 32 := by
  have recounted {changed : UserInfoManager} (same : changed.connections = base.connections)
      (unchanged : changed.maxPlayerCount = base.maxPlayerCount) :
      changed.updateCounts.CountsRight (max peak changed.updateCounts.connections) ↔
        base.connections = users.connections ∨ base.connections < 2 ^ 32 := by
    have exactly : changed.updateCounts.CountsRight (max peak changed.connections) ↔
        changed.connections < 2 ^ 32 := by
      apply updateCounts_countsRight_iff
      rw [unchanged, largest]
      exact right.largest
    refine exactly.trans ?_
    rw [same]
    refine ⟨.inr, ?_⟩
    rintro (old | fits)
    · rw [old, ← right.current]
      exact UInt32.toNat_lt _
    · exact fits
  rcases @addUser_of_entered _ _ _ accountID _ _ enters with
    ⟨zero, result⟩ | ⟨nonzero, ⟨other, taken⟩, result⟩ | ⟨nonzero, free, result⟩
  · rw [result, recounted rfl rfl]
    simp [zero]
  · rw [result]
    simp only [nonzero, taken, reduceCtorEq, or_self, false_and, or_false]
    constructor
    · intro still
      by_contra different
      have changed : (base.withAccount user accountID).connections ≠ users.connections := different
      exact right.lost changed current _ still
    · intro same
      have kept : (base.withAccount user accountID).connections = users.connections := same
      exact right.kept bounded kept current largest
  · have exactly := @recounted ((base.withAccount user accountID).registered user accountID) rfl rfl
    rw [result, exactly]
    simp [free]

/-- One call leaves right statistics right exactly when it keeps the counts. -/
theorem countsRight_call_iff {users : UserInfoManager} {peak : Nat}
    (right : users.CountsRight peak) (bounded : users.connections ≤ peak) (next : Call) :
    (users.call next).CountsRight (max peak (users.call next).connections) ↔
      users.KeepsCounts next := by
  cases next with
  | addUser connectID accountID memory =>
      change (users.addUser connectID accountID memory).2.CountsRight
        (max peak (users.addUser connectID accountID memory).2.connections) ↔ _
      cases found : users.findUserByConnectID connectID with
      | some user =>
          have known : users.Has connectID := has_iff.mpr ⟨user, found⟩
          rw [addUser_countsRight_iff right bounded (enterUser_of_find found memory) rfl rfl]
          exact iff_of_true (.inl rfl) (.inl known)
      | none =>
          have unknown : ¬users.Has connectID := not_has_iff.mpr found
          cases memory with
          | false =>
              rw [addUser_of_no_memory found]
              apply iff_of_true
              · exact right.kept bounded rfl rfl rfl
              · exact .inr (.inl rfl)
          | true =>
              rw [addUser_countsRight_iff right bounded (enterUser_of_absent found) rfl rfl,
                connections_entered found]
              have accounts : (users.entered connectID).findUserByAccountID accountID =
                  users.findUserByAccountID accountID := rfl
              simp [KeepsCounts, unknown, accounts]
  | removeUserByConnectID connectID =>
      cases found : users.findUserByConnectID connectID with
      | some user =>
          have known : users.Has connectID := has_iff.mpr ⟨user, found⟩
          have changed : (users.removed connectID user).connections ≠ users.connections := by
            have shorter := connections_removed found
            omega
          change (users.removeUserByConnectID connectID).CountsRight _ ↔ _
          rw [removeUserByConnectID_of_find found]
          apply iff_of_false
          · exact right.lost changed rfl _
          · exact not_not.mpr known
      | none =>
          rw [call_of_not_has found]
          apply iff_of_true
          · exact right.kept bounded rfl rfl rfl
          · exact not_has_iff.mpr found
  | updateUserByConnectID connectID playerInfo =>
      refine iff_of_true ?_ trivial
      change (users.updateUserByConnectID connectID playerInfo).CountsRight
        (max peak (users.updateUserByConnectID connectID playerInfo).connections)
      rw [updateUserByConnectID]
      split
      · exact right.kept bounded rfl rfl rfl
      · exact right.kept bounded rfl rfl rfl

/-- The statistics are right after every call of a sequence exactly when every call of it keeps the
counts. -/
theorem countsRight_throughout_iff (calls : List Call) :
    counted.Throughout (fun both => both.1.CountsRight both.2) (empty, 0) calls ↔
      counted.RunMeets (fun both next => both.1.KeepsCounts next) (empty, 0) calls := by
  have bounded : ∀ (before : UserInfoManager × Nat) next after,
      before.1.connections ≤ before.2 → counted.step before next = some after →
        after.1.connections ≤ after.2 := by
    rintro before next after - steps
    rcases Option.some.inj steps with rfl
    exact Nat.le_max_right _ _
  apply Transition.System.throughout_iff_runMeets bounded
  · rintro before next after bounded right steps
    rcases Option.some.inj steps with rfl
    exact countsRight_call_iff right bounded next
  · intro before next
    exact ⟨_, rfl⟩
  · exact Nat.le_refl 0
  · exact ⟨rfl, rfl⟩

/-- A user comes and goes. -/
theorem not_countsRight_removed :
    ∃ users peak, counted.run (empty, 0) [.addUser 1 0 true, .removeUserByConnectID 1] =
      some (users, peak) ∧ ¬users.CountsRight peak := by
  have runs : ∃ users peak, counted.run (empty, 0)
      [.addUser 1 0 true, .removeUserByConnectID 1] = some (users, peak) ∧
        users.curPlayerCount = 1 ∧ users.connections = 0 := ⟨_, _, rfl, rfl, rfl⟩
  rcases runs with ⟨users, peak, run, current, connections⟩
  refine ⟨users, peak, run, ?_⟩
  intro right
  have wrong := right.current
  rw [current, connections] at wrong
  contradiction

end UserInfoManager

end SunPush
