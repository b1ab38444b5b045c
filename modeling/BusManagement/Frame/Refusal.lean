/-! The codes that tell why a device refuses a request. -/

namespace BusManagement.Refusal

def readOnly : UInt8 := 5

/-- There is no such property. -/
def voidPoint : UInt8 := 7

def indexRange : UInt8 := 9

def wordings : List String :=
  ["unspecified error", "out of range", "out of maxrange", "out of minrange", "memory error", "read only",
    "illegal command", "void DP", "type conflict", "prop. index range error",
    "value temporarily not writeable"]

/-- The wording of a code. The codes above ten have none of their own. -/
def text (code : UInt8) : String := wordings[code.toNat]?.getD "unknown error code"

end BusManagement.Refusal
