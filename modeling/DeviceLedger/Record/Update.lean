import DeviceLedger.Record.Writer
import DeviceLedger.Record.Cursor
import DeviceLedger.Record.Slot

/-!
The record of a published update: four slots of 100 bytes and two single bytes, 402 bytes in all.
-/

namespace DeviceLedger

/-- An update of a device's software. -/
structure UpdateRecord where
  projectId : Bytes
  executableHash : Bytes
  ipfsUrl : Bytes
  deviceName : Bytes
  version : UInt8
  successCount : UInt8
  deriving DecidableEq

namespace UpdateRecord

/-- The record whose slots hold the given values, each cut or filled up to its width. -/
def ofTexts (projectId executableHash ipfsUrl deviceName : Bytes) (version successCount : UInt8) :
    UpdateRecord :=
  ⟨Slot.pad projectId 100, Slot.pad executableHash 100, Slot.pad ipfsUrl 100,
    Slot.pad deviceName 100, version, successCount⟩

/-- The bytes of a record: its slots as they are, then the two bytes. -/
def encode (record : UpdateRecord) : Bytes :=
  ((((((Writer.empty.fixed record.projectId).fixed record.executableHash).fixed
    record.ipfsUrl).fixed record.deviceName).u8 record.version).u8 record.successCount).buffer

def decode (value : Bytes) : Except StorageError UpdateRecord :=
  Cursor.run "update" value do
    let projectId ← Cursor.take 100
    let executableHash ← Cursor.take 100
    let ipfsUrl ← Cursor.take 100
    let deviceName ← Cursor.take 100
    let version ← Cursor.u8
    let successCount ← Cursor.u8
    return ⟨projectId, executableHash, ipfsUrl, deviceName, version, successCount⟩

def projectIdText (record : UpdateRecord) : String := Slot.text record.projectId

def executableHashText (record : UpdateRecord) : String := Slot.text record.executableHash

def ipfsUrlText (record : UpdateRecord) : String := Slot.text record.ipfsUrl

def deviceNameText (record : UpdateRecord) : String := Slot.text record.deviceName

end UpdateRecord

end DeviceLedger
