/-!
# Schemas

A name for each kind of document that is read. A text that cannot be read is reported by the schema
that it does not match.
-/

namespace TokenCustody

/-- The kinds of documents that are read. -/
inductive Schema where
  /-- The message that sets the bridge up. -/
  | instantiation
  /-- The message of a change of version. -/
  | migration
  /-- The message of a call. -/
  | command
  /-- What a token contract passes on with tokens it has moved. -/
  | hook
  /-- The message of a query. -/
  | question
  | poolAnswer
  | configAnswer
  | nonceAnswer
  | digestAnswer
  | pendingOwnerAnswer
  | config
  | pool
  | depositAuthorization
  | releaseAuthorization
  /-- The mark of a consumed nonce. -/
  | mark
  | account
  | version
  /-- The reply of a token contract that is asked for a balance. -/
  | balance
  deriving DecidableEq

end TokenCustody
