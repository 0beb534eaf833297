namespace MetricWatch.Url

/-- Why a text is no URL. -/
inductive Fault where
  | emptyHost
  | invalidName
  | invalidOpaqueHost
  | invalidPort
  | invalidIPv4
  | invalidIPv6
  | relativeWithoutBase
  | relativeToOpaque
deriving DecidableEq

def Fault.message : Fault → String
  | .emptyHost => "empty host"
  | .invalidName => "invalid international domain name"
  | .invalidOpaqueHost => "invalid domain character"
  | .invalidPort => "invalid port number"
  | .invalidIPv4 => "invalid IPv4 address"
  | .invalidIPv6 => "invalid IPv6 address"
  | .relativeWithoutBase => "relative URL without a base"
  | .relativeToOpaque => "relative URL with a cannot-be-a-base base"

end MetricWatch.Url
