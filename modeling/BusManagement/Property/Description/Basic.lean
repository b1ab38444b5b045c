import BusManagement.Fault

/-! Property descriptions and their seven octets. Four fields are narrower than the numbers that hold
them: the data type has six bits, the greatest element count twelve and the access levels four each.
Writing a description drops what does not fit; reading one ignores the bits that belong to no field
and everything behind the seventh octet. -/

namespace BusManagement

structure Description where
  objectIndex : UInt8
  pid : UInt8
  propertyIndex : UInt8
  writeEnabled : Bool
  dataType : UInt8
  maxElements : UInt16
  readLevel : UInt8
  writeLevel : UInt8
  deriving DecidableEq

namespace Description

/-- The bit of the fourth octet that says a property may be written. -/
def writeFlag : UInt8 := 0x80

def octets (d : Description) : Octets :=
  [d.objectIndex, d.pid, d.propertyIndex, (if d.writeEnabled then writeFlag else 0) + d.dataType % 64]
    ++ Octets.ofWord (d.maxElements % 4096) ++ [d.readLevel % 16 * 16 + d.writeLevel % 16]

def ofOctets : Octets → Except Fault Description
  | objectIndex :: pid :: propertyIndex :: kind :: countHigh :: countLow :: levels :: _ =>
    .ok ⟨objectIndex, pid, propertyIndex, writeFlag ≤ kind, kind % 64,
      Octets.word countHigh countLow % 4096, levels / 16, levels % 16⟩
  | os => .error (.descriptionTooShort os.length)

end Description

end BusManagement
