import TokenCustody.Bridge.Event
import TokenCustody.Message.Token

/-!
# Responses

What a call that succeeds hands to its surroundings: the calls of other contracts that are to
follow, the events, and attributes of the call itself.
-/

namespace TokenCustody

/-- Native money that is sent along with a call. -/
structure Coin where
  denomination : String
  amount : Amount
  deriving DecidableEq

/-- A call of a token contract. -/
structure TokenCall where
  /-- The contract that is called. -/
  contract : String
  /-- The text of the message. -/
  message : String
  coins : List Coin
  deriving DecidableEq

namespace TokenCall

/-- The call that gives an order to a token contract, without money. -/
def ofOrder (token : String) (order : TokenOrder) : TokenCall :=
  ⟨token, writeJson order, []⟩

end TokenCall

/-- The outcome of a call that succeeds. -/
structure Response where
  calls : List TokenCall
  events : List Event
  attributes : List Attribute
  deriving DecidableEq

end TokenCustody
