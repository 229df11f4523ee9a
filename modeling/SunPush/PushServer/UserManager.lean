import SunPush.Library.Memory
import Mathlib.Data.List.AList
import Mathlib.Logic.Function.Basic

/-!
# The user table

`USER_INFOMATION` and the `UserInfoManager` of it, from `UserManager.h` and
`UserManager.cpp`.  A user record is named by the number of its construction, so
that a pointer to it is a number; the pool never hands a number out twice.

Of the record, the fields that something reads are modelled; the address, the
login time and the password are only ever set.
-/

namespace SunPush

inductive UserStatus where
  | error
  | unknow
  | connected
  | logined
  | ready
  deriving DecidableEq, Repr

structure UserInfomation where
  connectID : Int
  accountID : UInt32
  userStatus : UserStatus
  accountName : Memory

/-- `USER_INFOMATION::USER_INFOMATION`. -/
def UserInfomation.construct : UserInfomation where
  connectID := -1
  accountID := 0
  userStatus := .unknow
  accountName := .zero

/-- `UserInfoManager<USER_INFOMATION>`, with the two global counters it keeps. -/
structure UserInfoManager where
  /-- The objects of `m_poolPlayers`. -/
  poolPlayers : Nat → UserInfomation
  /-- How many objects have been constructed in `m_poolPlayers`. -/
  constructed : Nat
  mapCIDToINFO : AList fun _ : Int => Nat
  mapAIDToINFO : AList fun _ : UInt32 => Nat
  curPlayerCount : UInt32
  maxPlayerCount : UInt32

namespace UserInfoManager

/-- The manager before any user is added. -/
def empty : UserInfoManager where
  poolPlayers _ := .construct
  constructed := 0
  mapCIDToINFO := ∅
  mapAIDToINFO := ∅
  curPlayerCount := 0
  maxPlayerCount := 0

/-- Change the record of a user. -/
def modify (users : UserInfoManager) (user : Nat) (change : UserInfomation → UserInfomation) :
    UserInfoManager :=
  { users with
    poolPlayers := Function.update users.poolPlayers user (change (users.poolPlayers user)) }

/-- A change of a record that keeps its connection keeps the connections of all records. -/
theorem connectID_modify (users : UserInfoManager) (user other : Nat)
    (change : UserInfomation → UserInfomation)
    (keeps : ∀ info, (change info).connectID = info.connectID) :
    ((users.modify user change).poolPlayers other).connectID =
      (users.poolPlayers other).connectID := by
  by_cases same : other = user
  · subst same
    simp only [modify, Function.update_self, keeps]
  · simp only [modify, Function.update_of_ne same]

/-- The first part of `AddUser`: the user of the connection, constructed if there is none.
`memory` says whether the pool finds memory. -/
def enterUser (users : UserInfoManager) (connectID : Int) (memory : Bool) :
    Option (Nat × UserInfoManager) :=
  match users.mapCIDToINFO.lookup connectID with
  | some user => some (user, users)
  | none =>
      if memory then
        let user := users.constructed
        some (user,
          { users with
            poolPlayers := Function.update users.poolPlayers user
              { UserInfomation.construct with connectID := connectID }
            constructed := users.constructed + 1
            mapCIDToINFO := users.mapCIDToINFO.insert connectID user })
      else none

/-- The last part of `AddUser`. -/
def updateCounts (users : UserInfoManager) : UserInfoManager :=
  let count := UInt32.ofNat users.mapCIDToINFO.entries.length
  { users with
    curPlayerCount := count
    maxPlayerCount := if users.maxPlayerCount < count then count else users.maxPlayerCount }

def addUser (users : UserInfoManager) (connectID : Int) (accountID : UInt32) (memory : Bool) :
    Option Nat × UserInfoManager :=
  match users.enterUser connectID memory with
  | none => (none, users)
  | some (user, users) =>
      if accountID ≠ 0 then
        let users := users.modify user fun info => { info with accountID := accountID }
        match users.mapAIDToINFO.lookup accountID with
        | some _ => (none, users)
        | none =>
            (some user,
              updateCounts
                { users with mapAIDToINFO := users.mapAIDToINFO.insert accountID user })
      else (some user, users.updateCounts)

def findUserByConnectID (users : UserInfoManager) (connectID : Int) : Option Nat :=
  users.mapCIDToINFO.lookup connectID

def removeUserByConnectID (users : UserInfoManager) (connectID : Int) : UserInfoManager :=
  match users.mapCIDToINFO.lookup connectID with
  | none => users
  | some user =>
      let accountID := (users.poolPlayers user).accountID
      { users with
        mapCIDToINFO := users.mapCIDToINFO.erase connectID
        mapAIDToINFO :=
          if accountID ≠ 0 then users.mapAIDToINFO.erase accountID else users.mapAIDToINFO }

def findUserByAccountID (users : UserInfoManager) (accountID : UInt32) : Option Nat :=
  users.mapAIDToINFO.lookup accountID

/-- `UpdateUserByConnectID`, which overwrites the whole record, keys included. -/
def updateUserByConnectID (users : UserInfoManager) (connectID : Int)
    (playerInfo : UserInfomation) : UserInfoManager :=
  match users.mapCIDToINFO.lookup connectID with
  | none => users
  | some user => users.modify user fun _ => playerInfo

/-! ## The connections in the table -/

/-- The table has a user for the connection. -/
def Has (users : UserInfoManager) (connectID : Int) : Prop :=
  connectID ∈ users.mapCIDToINFO

theorem has_iff {users : UserInfoManager} {connectID : Int} :
    users.Has connectID ↔ ∃ user, users.findUserByConnectID connectID = some user := by
  rw [Has, ← AList.lookup_isSome, Option.isSome_iff_exists]
  rfl

@[simp]
theorem not_has_empty (connectID : Int) : ¬empty.Has connectID :=
  AList.notMem_empty connectID

/-- The first `AddUser` of a connection enters it into the table, or finds no memory and changes
nothing. -/
theorem addUser_connection (users : UserInfoManager) (connectID : Int) (memory : Bool) :
    (∃ user, (users.addUser connectID 0 memory).1 = some user) ∧
        (∀ other, (users.addUser connectID 0 memory).2.Has other ↔
          other = connectID ∨ users.Has other) ∨
      users.addUser connectID 0 memory = (none, users) := by
  cases found : users.mapCIDToINFO.lookup connectID with
  | some user =>
      have entered : users.addUser connectID 0 memory = (some user, users.updateCounts) := by
        simp [addUser, enterUser, found]
      rw [entered]
      refine .inl ⟨⟨user, rfl⟩, ?_⟩
      intro other
      change users.Has other ↔ _
      constructor
      · exact .inr
      · rintro (rfl | has)
        · exact has_iff.mpr ⟨user, found⟩
        · exact has
  | none =>
      cases memory with
      | true =>
          left
          simp only [addUser, enterUser, found, if_true, ne_eq, not_true_eq_false, if_false]
          refine ⟨⟨_, rfl⟩, ?_⟩
          intro other
          simp only [Has, updateCounts, AList.mem_insert]
      | false =>
          right
          simp [addUser, enterUser, found]

end UserInfoManager

end SunPush
