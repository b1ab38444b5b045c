/-! The types of interface objects. A type is any 16-bit word; the system types have numbers and names
of their own. -/

namespace BusManagement.ObjectType

def device : UInt16 := 0
def addressTable : UInt16 := 1
def associationTable : UInt16 := 2
def applicationProgram : UInt16 := 3
def interfaceProgram : UInt16 := 4
def eibObjectAssociationTable : UInt16 := 5
def router : UInt16 := 6
def lteAddressRoutingTable : UInt16 := 7
def cemiServer : UInt16 := 8
def groupObjectTable : UInt16 := 9
def pollingMaster : UInt16 := 10
def knxnetIpParameter : UInt16 := 11
def fileServer : UInt16 := 13
def security : UInt16 := 17
def rfMedium : UInt16 := 19

def names : List (UInt16 × String) :=
  [(device, "Device Object"), (addressTable, "Address Table Object"),
    (associationTable, "Association Table Object"), (applicationProgram, "Application Program Object"),
    (interfaceProgram, "Interface Program Object"),
    (eibObjectAssociationTable, "EIB Object Association Table Object"), (router, "Router Object"),
    (lteAddressRoutingTable, "LTE Address Routing Table Object"), (cemiServer, "cEMI Server Object"),
    (groupObjectTable, "Group Object Table Object"), (pollingMaster, "Polling Master"),
    (knxnetIpParameter, "KNXnet/IP Parameter Object"), (fileServer, "File Server Object"),
    (security, "Security Object"), (rfMedium, "RF Medium Object")]

def name? (t : UInt16) : Option String := names.lookup t

end BusManagement.ObjectType
