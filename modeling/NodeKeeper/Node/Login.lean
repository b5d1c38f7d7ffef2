import NodeKeeper.Fault.Basic

/-!
# Login credentials

What somebody needs to log in to a new node: a user, and a password or a private key.

## Main definitions

* `Login` — login credentials.
* `Login.make` — the check that they can be used.
* `Login.written` — the credentials inside a message, without their secrets.
-/

namespace NodeKeeper

/-- Login credentials, as the provider reports them. -/
structure Login where
  user : Value
  password : Value := .null
  privateKey : Value := .null
deriving Inhabited

namespace Login

/-- Credentials need a user, and a password or a key. -/
def make (user password privateKey : Value) : Except Fault Login :=
  if !user.isTruthy then .error (.badValue "login credentials require a user")
  else if !password.isTruthy && !privateKey.isTruthy then
    .error (.badValue s!"login credentials for {user.shown} carry neither password nor key")
  else .ok ⟨user, password, privateKey⟩

/-- Credentials inside a message show the user alone. -/
def written (l : Login) : String := s!"LoginCredentials(user={l.user.written})"

end Login

end NodeKeeper
