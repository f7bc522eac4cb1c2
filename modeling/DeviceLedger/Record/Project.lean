import DeviceLedger.Record.Writer
import DeviceLedger.Record.Cursor
import DeviceLedger.Record.Slot

/-!
The record of a project: four slots, 732 bytes in all. The fields of a record may hold byte strings
of any length; `ofTexts` gives each the width of its slot, and decoding goes by these widths alone.
-/

namespace DeviceLedger

/-- A project that publishes updates. -/
structure ProjectRecord where
  name : Bytes
  description : Bytes
  owner : Bytes
  logo : Bytes
  deriving DecidableEq

namespace ProjectRecord

/-- The record whose slots hold the given values, each cut or filled up to its width. -/
def ofTexts (name description owner logo : Bytes) : ProjectRecord :=
  ⟨Slot.pad name 32, Slot.pad description 100, Slot.pad owner 500, Slot.pad logo 100⟩

/-- The bytes of a record: its fields as they are. -/
def encode (record : ProjectRecord) : Bytes :=
  ((((Writer.empty.fixed record.name).fixed record.description).fixed record.owner).fixed
    record.logo).buffer

def decode (value : Bytes) : Except StorageError ProjectRecord :=
  Cursor.run "project" value do
    let name ← Cursor.take 32
    let description ← Cursor.take 100
    let owner ← Cursor.take 500
    let logo ← Cursor.take 100
    return ⟨name, description, owner, logo⟩

def nameText (record : ProjectRecord) : String := Slot.text record.name

def descriptionText (record : ProjectRecord) : String := Slot.text record.description

def ownerText (record : ProjectRecord) : String := Slot.text record.owner

def logoText (record : ProjectRecord) : String := Slot.text record.logo

end ProjectRecord

end DeviceLedger
