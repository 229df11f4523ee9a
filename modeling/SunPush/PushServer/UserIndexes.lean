import SunPush.PushServer.UserManager
import SunPush.Library.Transition

/-!
# The two indexes of the user table

`UserInfoManager` finds a user by connection and by account.  A record holds
both of its keys, but `AddUser` and `UpdateUserByConnectID` change them in place
without looking at the entries made for the old ones, so whether the indexes
stay consistent depends on the calls.
-/

namespace SunPush

namespace UserInfoManager

/-- A call that changes the table. -/
inductive Call where
  | addUser (connectID : Int) (accountID : UInt32) (memory : Bool)
  | removeUserByConnectID (connectID : Int)
  | updateUserByConnectID (connectID : Int) (playerInfo : UserInfomation)

def call (users : UserInfoManager) : Call → UserInfoManager
  | .addUser connectID accountID memory => (users.addUser connectID accountID memory).2
  | .removeUserByConnectID connectID => users.removeUserByConnectID connectID
  | .updateUserByConnectID connectID playerInfo =>
      users.updateUserByConnectID connectID playerInfo

/-- Any calls in any order on the empty table. -/
def table : Transition.System UserInfoManager Call where
  Initial users := users = empty
  step users next := some (users.call next)

/-- Both indexes name the same users under the keys of their records. -/
structure Consistent (users : UserInfoManager) : Prop where
  account : ∀ accountID user, users.findUserByAccountID accountID = some user →
    (users.poolPlayers user).accountID = accountID ∧
      users.findUserByConnectID (users.poolPlayers user).connectID = some user
  connection : ∀ connectID user, users.findUserByConnectID connectID = some user →
    (users.poolPlayers user).accountID ≠ 0 →
      users.findUserByAccountID (users.poolPlayers user).accountID = some user

/-- What holds of the maps after any calls. -/
structure WellKeyed (users : UserInfoManager) : Prop where
  injective : ∀ left right user, users.findUserByConnectID left = some user →
    users.findUserByConnectID right = some user → left = right
  constructed : ∀ connectID user, users.findUserByConnectID connectID = some user →
    user < users.constructed
  nonzero : users.findUserByAccountID 0 = none

/-- A removal takes its user out of both indexes and no other user out of either. -/
def RemovesOne (users : UserInfoManager) : Prop :=
  ∀ connectID user, users.findUserByConnectID connectID = some user →
    let after := users.removeUserByConnectID connectID
    (∀ other, after.findUserByConnectID other ≠ some user) ∧
      (∀ accountID, after.findUserByAccountID accountID ≠ some user) ∧
      ∀ other, other ≠ user →
        (∀ key, users.findUserByConnectID key = some other →
          after.findUserByConnectID key = some other) ∧
        ∀ key, users.findUserByAccountID key = some other →
          after.findUserByAccountID key = some other

/-- The call gives a user without account an account that is free, or changes no key. -/
def KeepsKeys (users : UserInfoManager) : Call → Prop
  | .addUser connectID accountID memory =>
      accountID = 0 ∨
        match users.findUserByConnectID connectID with
        | none => memory = false ∨ users.findUserByAccountID accountID = none
        | some user =>
            (users.poolPlayers user).accountID = accountID ∨
              (users.poolPlayers user).accountID = 0 ∧
                users.findUserByAccountID accountID = none ∧
                (users.poolPlayers user).connectID = connectID
  | .removeUserByConnectID _ => True
  | .updateUserByConnectID connectID playerInfo =>
      ∀ user, users.findUserByConnectID connectID = some user →
        playerInfo.accountID = (users.poolPlayers user).accountID ∧
          (playerInfo.accountID = 0 ∨ playerInfo.connectID = connectID)

/-! ## Single changes -/

/-- The table with a new user for a connection. -/
def entered (users : UserInfoManager) (connectID : Int) : UserInfoManager :=
  { users with
    poolPlayers := Function.update users.poolPlayers users.constructed
      { UserInfomation.construct with connectID := connectID }
    constructed := users.constructed + 1
    mapCIDToINFO := users.mapCIDToINFO.insert connectID users.constructed }

theorem find_entered (users : UserInfoManager) (connectID key : Int) :
    (users.entered connectID).findUserByConnectID key =
      if key = connectID then some users.constructed else users.findUserByConnectID key := by
  by_cases same : key = connectID
  · subst same
    simp [entered, findUserByConnectID]
  · simp [entered, findUserByConnectID, same, AList.lookup_insert_ne]

/-- The table without a user that is in it. -/
def removed (users : UserInfoManager) (connectID : Int) (user : Nat) : UserInfoManager :=
  { users with
    mapCIDToINFO := users.mapCIDToINFO.erase connectID
    mapAIDToINFO :=
      if (users.poolPlayers user).accountID ≠ 0 then
        users.mapAIDToINFO.erase (users.poolPlayers user).accountID
      else users.mapAIDToINFO }

theorem removeUserByConnectID_of_find {users : UserInfoManager} {connectID : Int} {user : Nat}
    (found : users.findUserByConnectID connectID = some user) :
    users.removeUserByConnectID connectID = users.removed connectID user := by
  rw [findUserByConnectID] at found
  simp only [removeUserByConnectID, found, removed]

theorem find_removed (users : UserInfoManager) (connectID : Int) (user : Nat) (key : Int) :
    (users.removed connectID user).findUserByConnectID key =
      if key = connectID then none else users.findUserByConnectID key := by
  by_cases same : key = connectID
  · subst same
    simp [removed, findUserByConnectID]
  · simp [removed, findUserByConnectID, same, AList.lookup_erase_ne]

theorem findAccount_removed {users : UserInfoManager} (keyed : users.WellKeyed) (connectID : Int)
    (user : Nat) (key : UInt32) :
    (users.removed connectID user).findUserByAccountID key =
      if key = (users.poolPlayers user).accountID then none
      else users.findUserByAccountID key := by
  by_cases zero : (users.poolPlayers user).accountID = 0
  · by_cases same : key = 0
    · subst same
      simpa [removed, findUserByAccountID, zero] using keyed.nonzero
    · simp [removed, findUserByAccountID, zero, same]
  · by_cases same : key = (users.poolPlayers user).accountID
    · subst same
      simp [removed, findUserByAccountID, zero]
    · simp [removed, findUserByAccountID, zero, same, AList.lookup_erase_ne]

/-- The table in which a user's record has an account. -/
def withAccount (users : UserInfoManager) (user : Nat) (accountID : UInt32) : UserInfoManager :=
  users.modify user fun info => { info with accountID := accountID }

/-- The table in which an account leads to a user. -/
def registered (users : UserInfoManager) (user : Nat) (accountID : UInt32) : UserInfoManager :=
  { users with mapAIDToINFO := users.mapAIDToINFO.insert accountID user }

theorem findAccount_registered (users : UserInfoManager) (user : Nat) (accountID key : UInt32) :
    (users.registered user accountID).findUserByAccountID key =
      if key = accountID then some user else users.findUserByAccountID key := by
  by_cases same : key = accountID
  · subst same
    simp [registered, findUserByAccountID]
  · simp [registered, findUserByAccountID, same, AList.lookup_insert_ne]

theorem updateCounts_consistent {users : UserInfoManager} :
    users.updateCounts.Consistent ↔ users.Consistent :=
  ⟨fun consistent => ⟨consistent.account, consistent.connection⟩,
    fun consistent => ⟨consistent.account, consistent.connection⟩⟩

theorem updateCounts_wellKeyed {users : UserInfoManager} :
    users.updateCounts.WellKeyed ↔ users.WellKeyed :=
  ⟨fun keyed => ⟨keyed.injective, keyed.constructed, keyed.nonzero⟩,
    fun keyed => ⟨keyed.injective, keyed.constructed, keyed.nonzero⟩⟩

/-- The last part of `AddUser`, for a user that is in the table. -/
theorem addUser_of_entered {users base : UserInfoManager} {connectID : Int} {accountID : UInt32}
    {memory : Bool} {user : Nat} (enters : users.enterUser connectID memory = some (user, base)) :
    accountID = 0 ∧ (users.addUser connectID accountID memory).2 = base.updateCounts ∨
      accountID ≠ 0 ∧ (∃ other, base.findUserByAccountID accountID = some other) ∧
        (users.addUser connectID accountID memory).2 = base.withAccount user accountID ∨
      accountID ≠ 0 ∧ base.findUserByAccountID accountID = none ∧
        (users.addUser connectID accountID memory).2 =
          ((base.withAccount user accountID).registered user accountID).updateCounts := by
  by_cases zero : accountID = 0
  · left
    simp [addUser, enters, zero]
  · right
    have kept : (base.modify user fun info => { info with accountID := accountID }).mapAIDToINFO =
        base.mapAIDToINFO := rfl
    cases free : base.findUserByAccountID accountID with
    | some other =>
        rw [findUserByAccountID] at free
        left
        refine ⟨zero, ⟨other, rfl⟩, ?_⟩
        simp only [addUser, enters, zero, ne_eq, not_false_eq_true, if_true, kept, free]
        rfl
    | none =>
        rw [findUserByAccountID] at free
        right
        refine ⟨zero, rfl, ?_⟩
        simp only [addUser, enters, zero, ne_eq, not_false_eq_true, if_true, kept, free]
        rfl

theorem enterUser_of_find {users : UserInfoManager} {connectID : Int} {user : Nat}
    (found : users.findUserByConnectID connectID = some user) (memory : Bool) :
    users.enterUser connectID memory = some (user, users) := by
  rw [findUserByConnectID] at found
  simp only [enterUser, found]

theorem enterUser_of_absent {users : UserInfoManager} {connectID : Int}
    (absent : users.findUserByConnectID connectID = none) :
    users.enterUser connectID true = some (users.constructed, users.entered connectID) := by
  rw [findUserByConnectID] at absent
  simp only [enterUser, absent, if_true, entered]

theorem addUser_of_no_memory {users : UserInfoManager} {connectID : Int}
    (absent : users.findUserByConnectID connectID = none) (accountID : UInt32) :
    (users.addUser connectID accountID false).2 = users := by
  rw [findUserByConnectID] at absent
  simp [addUser, enterUser, absent]

/-! ## What every call keeps -/

theorem WellKeyed.entered {users : UserInfoManager} (keyed : users.WellKeyed) {connectID : Int}
    (absent : users.findUserByConnectID connectID = none) :
    (users.entered connectID).WellKeyed where
  injective := by
    intro left right user left_found right_found
    rw [find_entered] at left_found right_found
    have fresh : ∀ key, users.findUserByConnectID key ≠ some users.constructed := by
      intro key found
      exact absurd (keyed.constructed key _ found) (Nat.lt_irrefl _)
    split at left_found <;> split at right_found
    · subst_vars
      rfl
    · rw [← left_found] at right_found
      exact absurd right_found (fresh right)
    · rw [← right_found] at left_found
      exact absurd left_found (fresh left)
    · exact keyed.injective left right user left_found right_found
  constructed := by
    intro key user found
    change user < users.constructed + 1
    rw [find_entered] at found
    split at found
    · rw [Option.some.injEq] at found
      omega
    · have := keyed.constructed key user found
      omega
  nonzero := keyed.nonzero

theorem WellKeyed.withAccount {users : UserInfoManager} (keyed : users.WellKeyed) (user : Nat)
    (accountID : UInt32) : (users.withAccount user accountID).WellKeyed :=
  ⟨keyed.injective, keyed.constructed, keyed.nonzero⟩

theorem WellKeyed.registered {users : UserInfoManager} (keyed : users.WellKeyed) (user : Nat)
    {accountID : UInt32} (nonzero : accountID ≠ 0) :
    (users.registered user accountID).WellKeyed where
  injective := keyed.injective
  constructed := keyed.constructed
  nonzero := by
    rw [findAccount_registered, if_neg (Ne.symm nonzero)]
    exact keyed.nonzero

theorem WellKeyed.removed {users : UserInfoManager} (keyed : users.WellKeyed) (connectID : Int)
    (user : Nat) : (users.removed connectID user).WellKeyed where
  injective := by
    intro left right other left_found right_found
    rw [find_removed] at left_found right_found
    split at left_found
    · contradiction
    · split at right_found
      · contradiction
      · exact keyed.injective left right other left_found right_found
  constructed := by
    intro key other found
    rw [find_removed] at found
    split at found
    · contradiction
    · exact keyed.constructed key other found
  nonzero := by
    rw [findAccount_removed keyed]
    split
    · rfl
    · exact keyed.nonzero

theorem WellKeyed.call {users : UserInfoManager} (keyed : users.WellKeyed) (next : Call) :
    (users.call next).WellKeyed := by
  cases next with
  | addUser connectID accountID memory =>
      change (users.addUser connectID accountID memory).2.WellKeyed
      have finish {base : UserInfoManager} {user : Nat} (base_keyed : base.WellKeyed)
          (enters : users.enterUser connectID memory = some (user, base)) :
          (users.addUser connectID accountID memory).2.WellKeyed := by
        rcases @addUser_of_entered _ _ _ accountID _ _ enters with
          ⟨_, result⟩ | ⟨_, _, result⟩ | ⟨nonzero, _, result⟩
        · rw [result]
          exact updateCounts_wellKeyed.mpr base_keyed
        · rw [result]
          exact base_keyed.withAccount user accountID
        · rw [result]
          exact updateCounts_wellKeyed.mpr
            ((base_keyed.withAccount user accountID).registered user nonzero)
      cases found : users.findUserByConnectID connectID with
      | some user => exact finish keyed (enterUser_of_find found memory)
      | none =>
          cases memory with
          | true => exact finish (keyed.entered found) (enterUser_of_absent found)
          | false => rwa [addUser_of_no_memory found]
  | removeUserByConnectID connectID =>
      change (users.removeUserByConnectID connectID).WellKeyed
      cases found : users.findUserByConnectID connectID with
      | some user =>
          rw [removeUserByConnectID_of_find found]
          exact keyed.removed connectID user
      | none =>
          rw [findUserByConnectID] at found
          simpa only [removeUserByConnectID, found] using keyed
  | updateUserByConnectID connectID playerInfo =>
      change (users.updateUserByConnectID connectID playerInfo).WellKeyed
      rw [updateUserByConnectID]
      split
      · exact keyed
      · exact ⟨keyed.injective, keyed.constructed, keyed.nonzero⟩

/-! ## Which calls keep the indexes consistent -/

theorem Consistent.lt {users : UserInfoManager} (consistent : users.Consistent)
    (keyed : users.WellKeyed) {accountID : UInt32} {user : Nat}
    (found : users.findUserByAccountID accountID = some user) : user < users.constructed :=
  keyed.constructed _ user (consistent.account accountID user found).2

theorem Consistent.entered {users : UserInfoManager} (consistent : users.Consistent)
    (keyed : users.WellKeyed) {connectID : Int}
    (absent : users.findUserByConnectID connectID = none) :
    (users.entered connectID).Consistent where
  account := by
    intro accountID user found
    have old : user ≠ users.constructed := Nat.ne_of_lt (consistent.lt keyed found)
    have record : (users.entered connectID).poolPlayers user = users.poolPlayers user :=
      Function.update_of_ne old _ _
    have keys := consistent.account accountID user found
    rw [record, find_entered, if_neg]
    · exact keys
    · intro same
      rw [same, absent] at keys
      exact absurd keys.2 (by simp)
  connection := by
    intro key user found nonzero
    rw [find_entered] at found
    split at found
    · rw [Option.some.injEq] at found
      subst found
      have record : (users.entered connectID).poolPlayers users.constructed =
          { UserInfomation.construct with connectID := connectID } := Function.update_self ..
      rw [record] at nonzero
      exact absurd rfl nonzero
    · have old : user ≠ users.constructed := Nat.ne_of_lt (keyed.constructed key user found)
      have record : (users.entered connectID).poolPlayers user = users.poolPlayers user :=
        Function.update_of_ne old _ _
      rw [record] at nonzero ⊢
      exact consistent.connection key user found nonzero

section Assign

variable {users : UserInfoManager} {connectID : Int} {user : Nat} {accountID : UInt32}

theorem withAccount_self :
    (users.withAccount user accountID).poolPlayers user =
      { users.poolPlayers user with accountID := accountID } :=
  Function.update_self ..

theorem withAccount_of_ne {other : Nat} (different : other ≠ user) :
    (users.withAccount user accountID).poolPlayers other = users.poolPlayers other :=
  Function.update_of_ne different _ _

/-- An account that another entry holds already is refused after the record was changed. -/
theorem withAccount_consistent_iff (consistent : users.Consistent)
    (found : users.findUserByConnectID connectID = some user) (nonzero : accountID ≠ 0) :
    (users.withAccount user accountID).Consistent ↔
      (users.poolPlayers user).accountID = accountID := by
  constructor
  · intro after
    have entry := after.connection connectID user found (by rwa [withAccount_self])
    rw [withAccount_self] at entry
    exact (consistent.account accountID user entry).1
  · intro same
    have unchanged : users.withAccount user accountID = users := by
      have record : { users.poolPlayers user with accountID := accountID } =
          users.poolPlayers user := by rw [← same]
      simp only [withAccount, modify, record, Function.update_eq_self]
    rwa [unchanged]

/-- A free account is entered, but an earlier entry of the same user stays. -/
theorem registered_consistent_iff (consistent : users.Consistent) (keyed : users.WellKeyed)
    (found : users.findUserByConnectID connectID = some user)
    (free : users.findUserByAccountID accountID = none) :
    ((users.withAccount user accountID).registered user accountID).Consistent ↔
      (users.poolPlayers user).accountID = 0 ∧
        (users.poolPlayers user).connectID = connectID := by
  have lookup (key : UInt32) :
      ((users.withAccount user accountID).registered user accountID).findUserByAccountID key =
        if key = accountID then some user else users.findUserByAccountID key :=
    findAccount_registered ..
  constructor
  · intro after
    constructor
    · by_contra old_nonzero
      have old_entry := consistent.connection connectID user found old_nonzero
      have different : (users.poolPlayers user).accountID ≠ accountID := by
        intro same
        rw [same, free] at old_entry
        contradiction
      have stale := (after.account (users.poolPlayers user).accountID user
        (by rw [lookup, if_neg different, old_entry])).1
      change ((users.withAccount user accountID).poolPlayers user).accountID = _ at stale
      rw [withAccount_self] at stale
      exact different stale.symm
    · have own := (after.account accountID user (by rw [lookup, if_pos rfl])).2
      change users.findUserByConnectID
        ((users.withAccount user accountID).poolPlayers user).connectID = some user at own
      rw [withAccount_self] at own
      exact keyed.injective _ _ user own found
  · rintro ⟨old_zero, own⟩
    constructor
    · intro key other entry
      change ((users.withAccount user accountID).poolPlayers other).accountID = key ∧
        users.findUserByConnectID
          ((users.withAccount user accountID).poolPlayers other).connectID = some other
      rw [lookup] at entry
      split at entry
      · rw [Option.some.injEq] at entry
        subst entry
        rw [withAccount_self]
        exact ⟨Eq.symm ‹_›, by rw [own, found]⟩
      · have keys := consistent.account key other entry
        have different : other ≠ user := by
          rintro rfl
          rw [← keys.1, old_zero, keyed.nonzero] at entry
          contradiction
        rwa [withAccount_of_ne different]
    · intro key other other_found other_nonzero
      change users.findUserByConnectID key = some other at other_found
      change ((users.withAccount user accountID).poolPlayers other).accountID ≠ 0
        at other_nonzero
      change ((users.withAccount user accountID).registered user accountID).findUserByAccountID
        ((users.withAccount user accountID).poolPlayers other).accountID = some other
      by_cases same : other = user
      · subst same
        rw [withAccount_self, lookup, if_pos rfl]
      · rw [withAccount_of_ne same] at other_nonzero ⊢
        have entry := consistent.connection key other other_found other_nonzero
        rw [lookup, if_neg]
        · exact entry
        · intro reused
          rw [reused, free] at entry
          contradiction

end Assign

theorem Consistent.removed {users : UserInfoManager} (consistent : users.Consistent)
    (keyed : users.WellKeyed) {connectID : Int} {user : Nat}
    (found : users.findUserByConnectID connectID = some user) :
    (users.removed connectID user).Consistent where
  account := by
    intro accountID other entry
    rw [findAccount_removed keyed] at entry
    split at entry
    · contradiction
    · have keys := consistent.account accountID other entry
      refine ⟨keys.1, ?_⟩
      rw [find_removed, if_neg]
      · exact keys.2
      · intro same
        change (users.poolPlayers other).connectID = connectID at same
        rw [same, found, Option.some.injEq] at keys
        have own : accountID = (users.poolPlayers user).accountID := by rw [keys.2, keys.1]
        contradiction
  connection := by
    intro key other other_found nonzero
    rw [find_removed] at other_found
    split at other_found
    · contradiction
    · have entry := consistent.connection key other other_found nonzero
      change (users.removed connectID user).findUserByAccountID
        (users.poolPlayers other).accountID = some other
      rw [findAccount_removed keyed, if_neg]
      · exact entry
      · intro shared
        -- the removed user would be the entry of the shared account, hence the same user
        have own : (users.poolPlayers user).accountID ≠ 0 := shared ▸ nonzero
        have user_entry := consistent.connection connectID user found own
        rw [← shared, entry, Option.some.injEq] at user_entry
        subst user_entry
        have := keyed.injective key connectID other other_found found
        contradiction

theorem updateUserByConnectID_consistent_iff {users : UserInfoManager}
    (consistent : users.Consistent) (keyed : users.WellKeyed) {connectID : Int} {user : Nat}
    (found : users.findUserByConnectID connectID = some user) (playerInfo : UserInfomation) :
    (users.modify user fun _ => playerInfo).Consistent ↔
      playerInfo.accountID = (users.poolPlayers user).accountID ∧
        (playerInfo.accountID = 0 ∨ playerInfo.connectID = connectID) := by
  have self : (users.modify user fun _ => playerInfo).poolPlayers user = playerInfo :=
    Function.update_self ..
  have of_ne {other : Nat} (different : other ≠ user) :
      (users.modify user fun _ => playerInfo).poolPlayers other = users.poolPlayers other :=
    Function.update_of_ne different _ _
  constructor
  · intro after
    by_cases old_zero : (users.poolPlayers user).accountID = 0
    · have still_zero : playerInfo.accountID = 0 := by
        by_contra new_nonzero
        have entry := after.connection connectID user found (by rwa [self])
        rw [self] at entry
        exact new_nonzero ((consistent.account _ user entry).1.symm.trans old_zero)
      exact ⟨still_zero.trans old_zero.symm, .inl still_zero⟩
    · have entry := consistent.connection connectID user found old_zero
      have keys := after.account _ user entry
      rw [self] at keys
      exact ⟨keys.1, .inr (keyed.injective _ _ user keys.2 found)⟩
  · rintro ⟨same_account, own⟩
    constructor
    · intro accountID other entry
      change users.findUserByAccountID accountID = some other at entry
      have keys := consistent.account accountID other entry
      by_cases same : other = user
      · subst same
        rw [self]
        refine ⟨same_account.trans keys.1, ?_⟩
        rcases own with zero | own
        · rw [← keys.1, ← same_account, zero, keyed.nonzero] at entry
          contradiction
        · rw [own]
          exact found
      · rw [of_ne same]
        exact keys
    · intro key other other_found nonzero
      change users.findUserByConnectID key = some other at other_found
      by_cases same : other = user
      · subst same
        rw [self, same_account] at nonzero ⊢
        exact consistent.connection key other other_found nonzero
      · rw [of_ne same] at nonzero ⊢
        exact consistent.connection key other other_found nonzero

theorem addUser_consistent_iff {users : UserInfoManager} (consistent : users.Consistent)
    (keyed : users.WellKeyed) (connectID : Int) (accountID : UInt32) (memory : Bool) :
    (users.addUser connectID accountID memory).2.Consistent ↔
      users.KeepsKeys (.addUser connectID accountID memory) := by
  have finish {base : UserInfoManager} {user : Nat} (base_consistent : base.Consistent)
      (base_keyed : base.WellKeyed) (base_found : base.findUserByConnectID connectID = some user)
      (enters : users.enterUser connectID memory = some (user, base)) :
      (users.addUser connectID accountID memory).2.Consistent ↔
        accountID = 0 ∨ (base.poolPlayers user).accountID = accountID ∨
          (base.poolPlayers user).accountID = 0 ∧ base.findUserByAccountID accountID = none ∧
            (base.poolPlayers user).connectID = connectID := by
    rcases @addUser_of_entered _ _ _ accountID _ _ enters with
      ⟨zero, result⟩ | ⟨nonzero, ⟨other, taken⟩, result⟩ | ⟨nonzero, free, result⟩
    · rw [result, updateCounts_consistent]
      simp [zero, base_consistent]
    · rw [result, withAccount_consistent_iff base_consistent base_found nonzero]
      simp [nonzero, taken]
    · rw [result, updateCounts_consistent,
        registered_consistent_iff base_consistent base_keyed base_found free]
      have unused : (base.poolPlayers user).accountID ≠ accountID := by
        intro same
        have entry := base_consistent.connection connectID user base_found (same ▸ nonzero)
        rw [same, free] at entry
        contradiction
      simp [nonzero, free, unused]
  cases found : users.findUserByConnectID connectID with
  | some user =>
      rw [finish consistent keyed found (enterUser_of_find found memory)]
      simp only [KeepsKeys, found]
  | none =>
      cases memory with
      | false => simpa [addUser_of_no_memory found, KeepsKeys, found] using consistent
      | true =>
          have base_found : (users.entered connectID).findUserByConnectID connectID =
              some users.constructed := by rw [find_entered, if_pos rfl]
          have record : (users.entered connectID).poolPlayers users.constructed =
              { UserInfomation.construct with connectID := connectID } := Function.update_self ..
          rw [finish (consistent.entered keyed found) (keyed.entered found) base_found
            (enterUser_of_absent found)]
          simp only [KeepsKeys, found, record]
          have same_index : (users.entered connectID).findUserByAccountID accountID =
              users.findUserByAccountID accountID := rfl
          simp [UserInfomation.construct, same_index, eq_comm]

/-- One call on consistent indexes leaves them consistent exactly when it keeps the keys. -/
theorem consistent_call_iff {users : UserInfoManager} (consistent : users.Consistent)
    (keyed : users.WellKeyed) (next : Call) :
    (users.call next).Consistent ↔ users.KeepsKeys next := by
  cases next with
  | addUser connectID accountID memory =>
      exact addUser_consistent_iff consistent keyed connectID accountID memory
  | removeUserByConnectID connectID =>
      refine iff_of_true ?_ trivial
      change (users.removeUserByConnectID connectID).Consistent
      cases found : users.findUserByConnectID connectID with
      | some user =>
          rw [removeUserByConnectID_of_find found]
          exact consistent.removed keyed found
      | none =>
          rw [findUserByConnectID] at found
          simpa only [removeUserByConnectID, found] using consistent
  | updateUserByConnectID connectID playerInfo =>
      change (users.updateUserByConnectID connectID playerInfo).Consistent ↔ _
      cases found : users.findUserByConnectID connectID with
      | some user =>
          have changes := updateUserByConnectID_consistent_iff consistent keyed found playerInfo
          simp only [KeepsKeys, found, Option.some.injEq, forall_eq']
          rw [findUserByConnectID] at found
          simpa only [updateUserByConnectID, found] using changes
      | none =>
          simp only [KeepsKeys, found, reduceCtorEq, false_implies, implies_true, iff_true]
          rw [findUserByConnectID] at found
          simpa only [updateUserByConnectID, found] using consistent

theorem Consistent.removesOne {users : UserInfoManager} (consistent : users.Consistent)
    (keyed : users.WellKeyed) : users.RemovesOne := by
  intro connectID user found
  dsimp only
  rw [removeUserByConnectID_of_find found]
  refine ⟨?_, ?_, ?_⟩
  · intro other other_found
    rw [find_removed] at other_found
    split at other_found
    · contradiction
    · have := keyed.injective other connectID user other_found found
      contradiction
  · intro accountID entry
    rw [findAccount_removed keyed] at entry
    split at entry
    · contradiction
    · have := (consistent.account accountID user entry).1
      exact absurd this.symm ‹_›
  · intro other different
    refine ⟨?_, ?_⟩
    · intro key other_found
      rw [find_removed, if_neg]
      · exact other_found
      · rintro rfl
        rw [found, Option.some.injEq] at other_found
        exact different other_found.symm
    · intro accountID entry
      rw [findAccount_removed keyed, if_neg]
      · exact entry
      · rintro rfl
        have nonzero : (users.poolPlayers user).accountID ≠ 0 := by
          intro zero
          rw [zero, keyed.nonzero] at entry
          contradiction
        have own := consistent.connection connectID user found nonzero
        rw [entry, Option.some.injEq] at own
        exact different own

theorem empty_wellKeyed : empty.WellKeyed where
  injective := by
    intro left right user found
    exact absurd (has_iff.mpr ⟨user, found⟩) (not_has_empty left)
  constructed := by
    intro connectID user found
    exact absurd (has_iff.mpr ⟨user, found⟩) (not_has_empty connectID)
  nonzero := rfl

theorem empty_consistent : empty.Consistent where
  account := by
    intro accountID user found
    contradiction
  connection := by
    intro connectID user found
    exact absurd (has_iff.mpr ⟨user, found⟩) (not_has_empty connectID)

/-- After any calls that keep the keys the indexes are consistent, every user found is in the table,
and a removal removes one user. -/
theorem consistent_of_keepsKeys {users : UserInfoManager}
    (reached : table.ReachableBy KeepsKeys users) :
    users.Consistent ∧
      (∀ accountID user, users.findUserByAccountID accountID = some user →
        ∃ connectID, users.findUserByConnectID connectID = some user) ∧
      users.RemovesOne := by
  have both : users.Consistent ∧ users.WellKeyed := by
    apply reached.invariant
    · rintro initial rfl
      exact ⟨empty_consistent, empty_wellKeyed⟩
    · rintro before next after ⟨consistent, keyed⟩ keeps enabled
      rcases Option.some.inj enabled with rfl
      exact ⟨(consistent_call_iff consistent keyed next).mpr keeps, keyed.call next⟩
  rcases both with ⟨consistent, keyed⟩
  refine ⟨consistent, ?_, consistent.removesOne keyed⟩
  intro accountID user found
  exact ⟨_, (consistent.account accountID user found).2⟩

/-- A connection enters the table and logs in with an account. -/
theorem consistent_after_login :
    ∃ users, table.run empty [.addUser 1 0 true, .addUser 1 5 true] = some users ∧
      users.findUserByAccountID 5 = some 0 ∧ users.Consistent := by
  have first : table.ReachableBy KeepsKeys empty := .initial rfl
  have second := @Transition.System.ReachableBy.step _ _ table KeepsKeys empty _
    (.addUser 1 0 true) first (.inl rfl) rfl
  have third := @Transition.System.ReachableBy.step _ _ table KeepsKeys _ _
    (.addUser 1 5 true) second (.inr (.inr ⟨rfl, rfl, rfl⟩)) rfl
  exact ⟨_, rfl, rfl, (consistent_of_keepsKeys third).1⟩

/-- Two connections claim account 5.  The refused one is left with the account in its record, and
its removal takes the other user's account out of the index. -/
theorem not_consistent_shared_account :
    ∃ users, table.Reachable users ∧ ¬users.Consistent ∧
      users.findUserByAccountID 5 = some 0 ∧
      (users.removeUserByConnectID 2).findUserByConnectID 1 = some 0 ∧
      (users.removeUserByConnectID 2).findUserByAccountID 5 = none := by
  have runs : ∃ users, table.run empty
      [.addUser 1 0 true, .addUser 2 0 true, .addUser 1 5 true, .addUser 2 5 true] = some users ∧
      users.findUserByConnectID 2 = some 1 ∧ (users.poolPlayers 1).accountID = 5 ∧
      users.findUserByAccountID 5 = some 0 ∧
      (users.removeUserByConnectID 2).findUserByConnectID 1 = some 0 ∧
      (users.removeUserByConnectID 2).findUserByAccountID 5 = none :=
    ⟨_, rfl, rfl, rfl, rfl, rfl, rfl⟩
  rcases runs with ⟨users, run, refused, keeps_account, entry, stays, lost⟩
  refine ⟨users, Transition.System.reachable_of_run rfl run, ?_, entry, stays, lost⟩
  intro consistent
  have own := consistent.connection 2 1 refused (by rw [keeps_account]; decide)
  rw [keeps_account, entry] at own
  contradiction

end UserInfoManager

end SunPush
