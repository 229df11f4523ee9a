import SunPush.PushServer.UserIndexes

/-!
# What a refused user leaves behind

`AddUser` returns NULL when it finds no memory for a new record, and when the
account is registered already.  In the second case it has entered the connection
and written the account into the record before it finds out.
-/

namespace SunPush

namespace UserInfoManager

/-- Both maps, the accounts of all records and the counters are the same. -/
structure Unchanged (users after : UserInfoManager) : Prop where
  connections : after.mapCIDToINFO = users.mapCIDToINFO
  accounts : after.mapAIDToINFO = users.mapAIDToINFO
  records : ∀ user, (after.poolPlayers user).accountID = (users.poolPlayers user).accountID
  current : after.curPlayerCount = users.curPlayerCount
  largest : after.maxPlayerCount = users.maxPlayerCount

/-- If the call returns NULL it has changed nothing, and removing its connection later leaves the
account with the user who holds it. -/
def FailsCleanly (users : UserInfoManager) (connectID : Int) (accountID : UInt32)
    (memory : Bool) : Prop :=
  (users.addUser connectID accountID memory).1 = none →
    let after := (users.addUser connectID accountID memory).2
    users.Unchanged after ∧
      ∀ holder, users.findUserByAccountID accountID = some holder →
        users.findUserByConnectID connectID ≠ some holder →
          (after.removeUserByConnectID connectID).findUserByAccountID accountID = some holder

/-- The account is no other user's, or there is no memory to enter the connection. -/
def NotTaken (users : UserInfoManager) (connectID : Int) (accountID : UInt32)
    (memory : Bool) : Prop :=
  accountID = 0 ∨ users.findUserByAccountID accountID = none ∨
    match users.findUserByConnectID connectID with
    | none => memory = false
    | some user =>
        users.findUserByAccountID accountID = some user ∧
          (users.poolPlayers user).accountID = accountID

theorem Unchanged.refl (users : UserInfoManager) : users.Unchanged users :=
  ⟨rfl, rfl, fun _ => rfl, rfl, rfl⟩

section Entered

variable {users base : UserInfoManager} {connectID : Int} {accountID : UInt32} {memory : Bool}
  {user other : Nat}

/-- An account that the index has is refused. -/
theorem addUser_of_taken (enters : users.enterUser connectID memory = some (user, base))
    (nonzero : accountID ≠ 0) (taken : base.findUserByAccountID accountID = some other) :
    users.addUser connectID accountID memory = (none, base.withAccount user accountID) := by
  have kept : (base.modify user fun info => { info with accountID := accountID }).mapAIDToINFO =
      base.mapAIDToINFO := rfl
  rw [findUserByAccountID] at taken
  simp only [addUser, enters, ne_eq, nonzero, not_false_eq_true, if_true, kept, taken]
  rfl

theorem addUser_of_open (enters : users.enterUser connectID memory = some (user, base))
    (unused : accountID = 0 ∨ base.findUserByAccountID accountID = none) :
    (users.addUser connectID accountID memory).1 = some user := by
  by_cases zero : accountID = 0
  · simp [addUser, enters, zero]
  · have free := unused.resolve_left zero
    have kept : (base.modify user fun info => { info with accountID := accountID }).mapAIDToINFO =
        base.mapAIDToINFO := rfl
    rw [findUserByAccountID] at free
    simp only [addUser, enters, ne_eq, zero, not_false_eq_true, if_true, kept, free]

end Entered

/-- A removal erases the account that the record holds, whoever the index gives it to. -/
theorem findAccount_removed_own {users : UserInfoManager} (connectID : Int) {user : Nat}
    {accountID : UInt32} (own : (users.poolPlayers user).accountID = accountID)
    (nonzero : accountID ≠ 0) :
    (users.removed connectID user).findUserByAccountID accountID = none := by
  subst own
  simp [removed, findUserByAccountID, nonzero]

/-- A known connection is refused cleanly exactly when the account is its own already. -/
theorem failsCleanly_of_find {users : UserInfoManager} {connectID : Int} {accountID : UInt32}
    {user other : Nat} (memory : Bool) (found : users.findUserByConnectID connectID = some user)
    (nonzero : accountID ≠ 0) (taken : users.findUserByAccountID accountID = some other) :
    users.FailsCleanly connectID accountID memory ↔
      other = user ∧ (users.poolPlayers user).accountID = accountID := by
  have refused := addUser_of_taken (enterUser_of_find found memory) nonzero taken
  rw [FailsCleanly, refused]
  constructor
  · intro clean
    rcases clean rfl with ⟨unchanged, entry⟩
    have written : ((users.withAccount user accountID).poolPlayers user).accountID =
        accountID := by rw [withAccount_self]
    refine ⟨?_, (unchanged.records user).symm.trans written⟩
    by_contra different
    -- the removal of the refused connection erases the account under the other user
    have kept := entry other taken (by
      intro same
      rw [found, Option.some.injEq] at same
      exact different same.symm)
    have still_found : (users.withAccount user accountID).findUserByConnectID connectID =
        some user := found
    rw [removeUserByConnectID_of_find still_found,
      findAccount_removed_own connectID written nonzero] at kept
    contradiction
  · rintro ⟨rfl, own⟩ -
    have record : { users.poolPlayers other with accountID := accountID } =
        users.poolPlayers other := by rw [← own]
    have unchanged : users.withAccount other accountID = users := by
      simp only [withAccount, modify, record, Function.update_eq_self]
    dsimp only
    rw [unchanged]
    refine ⟨.refl users, ?_⟩
    intro holder holds different
    rw [taken] at holds
    exact absurd (found.trans holds) different

/-- A new connection is not: it stays in the table. -/
theorem not_failsCleanly_of_absent {users : UserInfoManager} {connectID : Int}
    {accountID : UInt32} {other : Nat} (absent : users.findUserByConnectID connectID = none)
    (nonzero : accountID ≠ 0) (taken : users.findUserByAccountID accountID = some other) :
    ¬users.FailsCleanly connectID accountID true := by
  have refused := addUser_of_taken (enterUser_of_absent absent) nonzero
    (show (users.entered connectID).findUserByAccountID accountID = some other from taken)
  rw [FailsCleanly, refused]
  intro clean
  have same := (clean rfl).1.connections
  have entry : (users.entered connectID).findUserByConnectID connectID =
      some users.constructed := by rw [find_entered, if_pos rfl]
  change (users.entered connectID).mapCIDToINFO = users.mapCIDToINFO at same
  rw [findUserByConnectID, same, ← findUserByConnectID, absent] at entry
  contradiction

theorem failsCleanly_of_no_memory {users : UserInfoManager} {connectID : Int}
    (absent : users.findUserByConnectID connectID = none) (accountID : UInt32) :
    users.FailsCleanly connectID accountID false := by
  intro _
  dsimp only
  rw [addUser_of_no_memory absent]
  refine ⟨.refl users, ?_⟩
  intro holder holds _
  rw [findUserByConnectID] at absent
  simpa only [removeUserByConnectID, absent] using holds

/-- A call fails cleanly exactly when the account is not another user's. -/
theorem failsCleanly_iff (users : UserInfoManager) (connectID : Int) (accountID : UInt32)
    (memory : Bool) :
    users.FailsCleanly connectID accountID memory ↔
      users.NotTaken connectID accountID memory := by
  have accepted {base : UserInfoManager} {user : Nat}
      (enters : users.enterUser connectID memory = some (user, base))
      (unused : accountID = 0 ∨ base.findUserByAccountID accountID = none) :
      users.FailsCleanly connectID accountID memory := by
    intro refused
    rw [addUser_of_open enters unused] at refused
    contradiction
  cases found : users.findUserByConnectID connectID with
  | some user =>
      simp only [NotTaken, found]
      by_cases zero : accountID = 0
      · exact iff_of_true (accepted (enterUser_of_find found memory) (.inl zero)) (.inl zero)
      · cases taken : users.findUserByAccountID accountID with
        | none =>
            apply iff_of_true
            · exact accepted (enterUser_of_find found memory) (.inr taken)
            · exact .inr (.inl rfl)
        | some other =>
            rw [failsCleanly_of_find memory found zero taken]
            simp [zero]
  | none =>
      simp only [NotTaken, found]
      cases memory with
      | false => exact iff_of_true (failsCleanly_of_no_memory found accountID) (.inr (.inr rfl))
      | true =>
          have enters := enterUser_of_absent found
          by_cases zero : accountID = 0
          · exact iff_of_true (accepted enters (.inl zero)) (.inl zero)
          · cases taken : users.findUserByAccountID accountID with
            | none => exact iff_of_true (accepted enters (.inr taken)) (.inr (.inl rfl))
            | some other =>
                apply iff_of_false (not_failsCleanly_of_absent found zero taken)
                simp [zero]

/-- Connection 2 asks for the account of connection 1. -/
theorem not_failsCleanly_second_account :
    ∃ users, table.Reachable users ∧ ¬users.FailsCleanly 2 5 true := by
  have runs : ∃ users, table.run empty [.addUser 1 5 true] = some users ∧
      users.findUserByConnectID 2 = none ∧ users.findUserByAccountID 5 = some 0 :=
    ⟨_, rfl, rfl, rfl⟩
  rcases runs with ⟨users, run, absent, taken⟩
  refine ⟨users, Transition.System.reachable_of_run rfl run, ?_⟩
  exact not_failsCleanly_of_absent absent (by decide) taken

end UserInfoManager

end SunPush
