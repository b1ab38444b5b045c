/-! Well-known property ids. -/

namespace BusManagement.PropertyId

def objectType : UInt8 := 1
def objectName : UInt8 := 2
def loadStateControl : UInt8 := 5
def serialNumber : UInt8 := 11
def manufacturerId : UInt8 := 12
def deviceControl : UInt8 := 14
def maxApduLength : UInt8 := 56
def mediumType : UInt8 := 51
def commMode : UInt8 := 52
/-- The object list of the device: element 0 is the number of interface objects, the elements from 1 on
are their types in the order of their indices. -/
def objectList : UInt8 := 71
def deviceDescriptor : UInt8 := 83

end BusManagement.PropertyId
