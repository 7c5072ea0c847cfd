import Sopmq.Basic

/-!
# Authorization of a client

`user_account::is_authorized` looks the user up in the storage and compares the
response of the client with the hash of the stored password hash and the
challenge. The lookup callback is modelled by the list of the values it invokes
the authorization callback with, in order.

The rejection of a missing or disabled user does not return: the callback goes on
to the hash comparison and reports a second verdict. The hash and its hexadecimal
encoding are those of Crypto++ and are parameters here.
-/

namespace Sopmq

/-- The functions of Crypto++ that the accounts use. Nothing is assumed of
them. -/
structure Crypto where
  sha256 : Bytes → Bytes
  hexEncode : Bytes → Bytes

/-- The identity for the hash and for its encoding, with which the answers
of a run on fixed inputs can be read. -/
def Crypto.plain : Crypto := ⟨fun bytes => bytes, fun bytes => bytes⟩

/-- `storage_error`, with the text it carries, which is that of the
driver. -/
structure StorageError where
  what : String
deriving DecidableEq, Repr

/-- `user_account`; the default values are those of the default
constructor. -/
structure UserAccount where
  nameHash : Bytes := []
  username : Bytes := []
  pwHash : Bytes := []
  userLevel : Int32 := 0

/-- A row of the users table, as far as its columns have values. Any of them
may be null. -/
structure UserRow where
  unameHash : Option Bytes
  username : Option Bytes
  pwHash : Option Bytes
  userLevel : Option Int32

/-- The finished query: an error, or the rows it returned. The callback of
the query reads one of the two. -/
structure AsyncQueryState where
  error : Option StorageError
  rows : List UserRow

/-- `find_user_result`. The account is a default one where no user was
found. -/
structure FindUserResult where
  userFound : Bool
  error : Option StorageError
  account : UserAccount

/-- `get_string_column_value`, which gives the empty string for a null
column. -/
def getStringColumnValue (column : Option Bytes) : Bytes := column.getD []

/-- `get_int_column_value`, which gives zero for a null column. -/
def getIntColumnValue (column : Option Int32) : Int32 := column.getD 0

/-- What the callback of `cassandra_storage::find_user` hands on: the first
row as an account, or a default account when there is an error or no row. -/
def findUser (qstate : AsyncQueryState) : FindUserResult :=
  match qstate.error with
  | some error => { userFound := false, error := some error, account := {} }
  | none =>
      match qstate.rows with
      | row :: _ =>
          { userFound := true
            error := none
            account :=
              { nameHash := getStringColumnValue row.unameHash
                username := getStringColumnValue row.username
                pwHash := getStringColumnValue row.pwHash
                userLevel := getIntColumnValue row.userLevel } }
      | [] => { userFound := false, error := none, account := {} }

/-- `util::sha256_hex_string`, the encoding of the hash. -/
def Crypto.sha256HexString (crypto : Crypto) (data : Bytes) : Bytes :=
  crypto.hexEncode (crypto.sha256 data)

namespace UserAccount

/-- `user_account::create`: the account, whose fields are the columns of the
row that it inserts into the users table. -/
def create (crypto : Crypto) (userName password : Bytes) (userLevel : Int32) : UserAccount where
  nameHash := crypto.sha256HexString userName
  username := userName
  pwHash := crypto.sha256HexString password
  userLevel := userLevel

/-- The row of the users table that holds an account, with a value in every
column. -/
def row (account : UserAccount) : UserRow where
  unameHash := some account.nameHash
  username := some account.username
  pwHash := some account.pwHash
  userLevel := some account.userLevel

/-- The response a client with this account gives to a challenge: a hash of
the password hash with the challenge behind it. -/
def goodResponse (crypto : Crypto) (account : UserAccount) (challengeBytes : Bytes) : Bytes :=
  crypto.hexEncode (crypto.sha256 (account.pwHash ++ challengeBytes))

/-- The lookup callback of `user_account::is_authorized`: the values it
calls `authCallback` with. -/
def userLookupCb (crypto : Crypto) (fur : FindUserResult)
    (challengeBytes passwordChallengeHashHexString : Bytes) : List Bool :=
  let rejected := if !fur.userFound || fur.account.userLevel == 0 then [false] else []
  if goodResponse crypto fur.account challengeBytes == passwordChallengeHashHexString then
    rejected ++ [true]
  else
    rejected ++ [false]

/-- `user_account::is_authorized`, for the outcome of its query: the
verdicts that it reports. -/
def isAuthorized (crypto : Crypto) (qstate : AsyncQueryState)
    (challengeBytes passwordChallengeHashHexString : Bytes) : List Bool :=
  userLookupCb crypto (findUser qstate) challengeBytes passwordChallengeHashHexString

/-- The user was found and is not disabled, which a level of zero would
mean. -/
def Enabled (fur : FindUserResult) : Prop :=
  fur.userFound = true ∧ fur.account.userLevel ≠ 0

/-- The contract of the authorization: one call of the callback, with true
exactly for an enabled user's good response, and never with true for any
other user. -/
def AuthorizedOnce (crypto : Crypto) (qstate : AsyncQueryState)
    (challengeBytes passwordChallengeHashHexString : Bytes) : Prop :=
  (∃ verdict,
    isAuthorized crypto qstate challengeBytes passwordChallengeHashHexString = [verdict] ∧
      (verdict = true ↔ Enabled (findUser qstate) ∧
        passwordChallengeHashHexString =
          goodResponse crypto (findUser qstate).account challengeBytes)) ∧
  (¬ Enabled (findUser qstate) →
    true ∉ isAuthorized crypto qstate challengeBytes passwordChallengeHashHexString)

/-- An enabled user gets one verdict, that of the hash comparison. -/
theorem isAuthorized_enabled (crypto : Crypto) (qstate : AsyncQueryState)
    (challengeBytes response : Bytes) (enabled : Enabled (findUser qstate)) :
    isAuthorized crypto qstate challengeBytes response =
      [decide (goodResponse crypto (findUser qstate).account challengeBytes = response)] := by
  obtain ⟨found, level⟩ := enabled
  by_cases good : goodResponse crypto (findUser qstate).account challengeBytes = response <;>
    simp [isAuthorized, userLookupCb, found, level, good]

/-- A missing or disabled user is rejected and then compared all the same.
The second verdict may be positive. -/
theorem isAuthorized_rejected (crypto : Crypto) (qstate : AsyncQueryState)
    (challengeBytes response : Bytes) (rejected : ¬ Enabled (findUser qstate)) :
    isAuthorized crypto qstate challengeBytes response =
      [false,
        decide (goodResponse crypto (findUser qstate).account challengeBytes = response)] := by
  have refused : (!(findUser qstate).userFound || (findUser qstate).account.userLevel == 0) =
      true := by
    cases found : (findUser qstate).userFound with
    | false => rfl
    | true =>
      have disabled : (findUser qstate).account.userLevel = 0 := by
        by_contra level
        exact rejected ⟨found, level⟩
      simp [disabled]
  by_cases good : goodResponse crypto (findUser qstate).account challengeBytes = response <;>
    simp [isAuthorized, userLookupCb, refused, good]

/-- The authorization keeps its contract exactly for users that were found
and are not disabled, whatever the challenge and the response. -/
theorem authorized_once_iff (crypto : Crypto) (qstate : AsyncQueryState)
    (challengeBytes response : Bytes) :
    AuthorizedOnce crypto qstate challengeBytes response ↔ Enabled (findUser qstate) := by
  constructor
  · rintro ⟨⟨verdict, once, _⟩, _⟩
    by_contra rejected
    rw [isAuthorized_rejected crypto qstate challengeBytes response rejected] at once
    simp at once
  · intro enabled
    refine ⟨⟨_, isAuthorized_enabled crypto qstate challengeBytes response enabled, ?_⟩,
      fun rejected => absurd enabled rejected⟩
    rw [decide_eq_true_iff]
    exact ⟨fun good => ⟨enabled, good.symm⟩, fun good => good.2.symm⟩

/-- A user that is not in the storage answers a challenge with the hash of
the challenge alone, and is authorized after having been rejected. No hash
function prevents it. -/
theorem missing_user_authorized :
    ¬ ∃ crypto : Crypto, AuthorizedOnce crypto ⟨none, []⟩ [7]
      (crypto.hexEncode (crypto.sha256 [7])) := by
  rintro ⟨crypto, _, never⟩
  have missing : ¬ Enabled (findUser ⟨none, []⟩) := by
    rintro ⟨found, _⟩
    exact absurd found (by decide)
  have refused := never missing
  rw [isAuthorized_rejected crypto ⟨none, []⟩ _ _ missing] at refused
  simp [goodResponse, findUser] at refused

end UserAccount

end Sopmq
