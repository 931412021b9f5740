/-
The rows of users and tokens, and the statements that move quota between them.

`increaseUserQuota`, `decreaseUserQuota`, `increaseTokenQuota` and
`decreaseTokenQuota` are the `UPDATE` statements of `model/user.go` and
`model/token.go` as they run without Redis and without batched updates: one
statement on one row, rejected when the amount is negative, and without effect
when the row does not exist.
-/
import AcuGateway.Lib.Table

open Table

/-- A user row; `status = 1` is an enabled user. -/
structure User where
  id : Int
  status : Int
  quota : Int
  usedQuota : Int
  requestCount : Int
  group : String

/-- A token row; `status = 1` is an enabled token. -/
structure Token where
  id : Int
  userId : Int
  key : String
  status : Int
  remainQuota : Int
  usedQuota : Int
  unlimitedQuota : Bool
  accessedTime : Int

abbrev Users := Table User.id

abbrev Tokens := Table Token.id

/-- The message of every quota statement that is given a negative amount. -/
def negativeQuota : String := "quota 不能为负数！"

variable (users : Users)

/-- The quota column of user `id`; a missing row reads as 0. -/
def getUserQuota (id : Int) : Int := ((users.find? id).map User.quota).getD 0

/-- Add `delta` to the quota column of user `id`. -/
def addUserQuota (id delta : Int) : Users :=
  users.update (fun u => u.id = id) (fun u => { u with quota := u.quota + delta }) fun _ _ => rfl

def increaseUserQuota (id quota : Int) : Except String Users :=
  if quota < 0 then .error negativeQuota else .ok (addUserQuota users id quota)

def decreaseUserQuota (id quota : Int) : Except String Users :=
  if quota < 0 then .error negativeQuota else .ok (addUserQuota users id (-quota))

variable (tokens : Tokens)

/-- Move `delta` from the used to the remaining quota of token `id`. -/
def addTokenQuota (id delta now : Int) : Tokens :=
  tokens.update (fun t => t.id = id)
    (fun t => { t with
      remainQuota := t.remainQuota + delta
      usedQuota := t.usedQuota - delta
      accessedTime := now })
    fun _ _ => rfl

def increaseTokenQuota (id quota now : Int) : Except String Tokens :=
  if quota < 0 then .error negativeQuota else .ok (addTokenQuota tokens id quota now)

def decreaseTokenQuota (id quota now : Int) : Except String Tokens :=
  if quota < 0 then .error negativeQuota else .ok (addTokenQuota tokens id (-quota) now)

/-- The token with the given key. -/
def getTokenByKey (key : String) : Option Token := tokens.rows.find? fun t => t.key = key

/-! ### Balances -/

section Accepted

variable {users users' : Users} {tokens tokens' : Tokens} {id q now : Int}

theorem increaseUserQuota_nonneg (h : 0 ≤ q) :
    increaseUserQuota users id q = .ok (addUserQuota users id q) := if_neg (not_lt.mpr h)

theorem decreaseUserQuota_nonneg (h : 0 ≤ q) :
    decreaseUserQuota users id q = .ok (addUserQuota users id (-q)) := if_neg (not_lt.mpr h)

theorem increaseTokenQuota_nonneg (h : 0 ≤ q) :
    increaseTokenQuota tokens id q now = .ok (addTokenQuota tokens id q now) :=
  if_neg (not_lt.mpr h)

theorem decreaseTokenQuota_nonneg (h : 0 ≤ q) :
    decreaseTokenQuota tokens id q now = .ok (addTokenQuota tokens id (-q) now) :=
  if_neg (not_lt.mpr h)

theorem decreaseUserQuota_ok (h : decreaseUserQuota users id q = .ok users') :
    users' = addUserQuota users id (-q) := by
  unfold decreaseUserQuota at h
  split_ifs at h
  injection h with h
  exact h.symm

theorem decreaseTokenQuota_ok (h : decreaseTokenQuota tokens id q now = .ok tokens') :
    tokens' = addTokenQuota tokens id (-q) now := by
  unfold decreaseTokenQuota at h
  split_ifs at h
  injection h with h
  exact h.symm

end Accepted

/-- The remaining and the used quota of token `id`. -/
def tokenQuota (id : Int) : Option (Int × Int) :=
  (tokens.find? id).map fun t => (t.remainQuota, t.usedQuota)

theorem find?_addUserQuota (id delta k : Int) : (addUserQuota users id delta).find? k =
      (users.find? k).map fun u => if k = id then { u with quota := u.quota + delta } else u := by
  rw [addUserQuota, find?_update]
  rcases h : users.find? k with _ | u
  · rfl
  · simp [key_of_find? h]

@[simp] theorem addUserQuota_zero (id : Int) : addUserQuota users id 0 = users := by
  cases users
  simp [addUserQuota, update]

theorem addUserQuota_addUserQuota (id a b : Int) :
    addUserQuota (addUserQuota users id a) id b = addUserQuota users id (a + b) := by
  simp only [addUserQuota, update, List.map_map, Table.mk.injEq, and_true]
  refine List.map_congr_left fun u _ => ?_
  by_cases h : u.id = id
  · simp [h, Int.add_assoc]
  · simp [h]

/-- An update of one user leaves the quota of the others. -/
theorem getUserQuota_addUserQuota {users : Users} {id : Int} {u : User}
    (hu : users.find? id = some u) (delta k : Int) :
    getUserQuota (addUserQuota users id delta) k = getUserQuota users k + if k = id then delta
      else 0 := by
  rw [getUserQuota, getUserQuota, find?_addUserQuota]
  by_cases hk : k = id
  · simp [hk, hu]
  · simp [hk]

theorem tokenQuota_addTokenQuota (id delta now k : Int) :
    tokenQuota (addTokenQuota tokens id delta now) k =
      (tokenQuota tokens k).map fun q =>
        if k = id then (q.1 + delta, q.2 - delta) else q := by
  rw [tokenQuota, tokenQuota, addTokenQuota, find?_update]
  rcases h : tokens.find? k with _ | t
  · rfl
  · by_cases hk : k = id
    · simp [key_of_find? h, hk]
    · simp [key_of_find? h, hk]
