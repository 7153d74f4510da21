namespace FullTextQuery.Url

/-!
# Reasons to refuse a URL
-/

/-- Why a text is not an absolute URL. -/
inductive ParseError where
  | relativeWithoutBase
  | emptyHost
  | invalidPort
  | invalidIpv4Address
  | invalidIpv6Address
  | invalidDomainCharacter
  | invalidInternationalDomain
  deriving Repr, DecidableEq

namespace ParseError

/-- The wording of a refusal. -/
def message : ParseError → String
  | .relativeWithoutBase => "relative URL without a base"
  | .emptyHost => "empty host"
  | .invalidPort => "invalid port number"
  | .invalidIpv4Address => "invalid IPv4 address"
  | .invalidIpv6Address => "invalid IPv6 address"
  | .invalidDomainCharacter => "invalid domain character"
  | .invalidInternationalDomain => "invalid international domain name"

end ParseError

end FullTextQuery.Url
