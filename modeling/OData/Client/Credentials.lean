/-
# Credentials

Bearer tokens for security contexts. A context without a token of its own is
looked up in the environment, where a blank value counts as none; a token that has
expired is not replaced by the environment's.
-/

import OData.Http.Message
import OData.Text.Character

namespace OData.Client

/-- An access token. -/
structure Token where
  value : String
  /-- The time from which on it is no longer good. -/
  expiresAt : Option Nat := none

/-- The token is no longer good. -/
def Token.isExpired (token : Token) (now : Nat) : Bool := token.expiresAt.any (· ≤ now)

/-- A source of bearer tokens. -/
structure Bearer where
  /-- Tokens by security context; a later one of the same context counts. -/
  tokens : List (String × Token) := []
  /-- The variables of the environment. -/
  environment : String → Option String
  /-- The present time. -/
  now : Nat := 0

namespace Bearer

/-- The token kept for a security context. -/
def kept? (bearer : Bearer) (context : String) : Option Token :=
  (bearer.tokens.reverse.find? fun entry => entry.1 == context).map Prod.snd

/-- The token text for a security context. -/
def token? (bearer : Bearer) (context : String) : Option String :=
  match bearer.kept? context with
  | some token => if token.isExpired bearer.now then none else some token.value
  | none => (bearer.environment context).filter fun value => !Text.isBlankText value

end Bearer

/-- What an authenticator decides about a request, and what it makes of it. -/
structure Verdict where
  accepted : Bool
  request : Http.Request

/-- Add the token of a security context to a request, or refuse it. -/
def Bearer.authenticate (bearer : Bearer) (request : Http.Request) (context : Option String) :
    Verdict :=
  match context.bind bearer.token? with
  | some token => ⟨true, request.setHeader "Authorization" ("Bearer " ++ token)⟩
  | none => ⟨false, request⟩

end OData.Client
