import DeviceLedger.Proofs.CutText
import DeviceLedger.Proofs.RecordCodec
import DeviceLedger.Proofs.ShownRecords
import DeviceLedger.Proofs.WriteOnce

/-! The texts that the service shows of projects and updates. Each is what is read back from its
own slot: it depends on the text that was put there and on the width of the slot, and on nothing
beside it. -/

namespace DeviceLedger

open Fallible Http

/-- What is shown of a value that was put into a slot. It depends on the value and the width
alone; of a text without the character of code zero it is what is legible. -/
structure Slot.Shows (width : Nat) (value : Bytes) (shown : String) : Prop where
  eq_text : shown = Slot.text (Slot.pad value width)
  eq_legible : ∀ text : String, '\x00' ∉ text.toList → value = Utf8.encode text →
    shown = Slot.legible width text

theorem Slot.shows_text (width : Nat) (value : Bytes) :
    Shows width value (Slot.text (Slot.pad value width)) := by
  refine ⟨rfl, ?_⟩
  rintro text hNul rfl
  exact Slot.text_pad_encode hNul width

/-- What a store shows of a project with these texts: it is read back, and every request for it
is answered with a view in which each text is shown by its own slot. -/
structure Store.ShowsProject (store : Store) (id : Identifier)
    (name description owner logo : Bytes) (shown : ProjectView) : Prop where
  read_eq : Project.read (.ofStore store) id = .ok (some (.ofTexts name description owner logo))
  id_eq : shown.id = id
  name : Slot.Shows 32 name shown.name
  description : Slot.Shows 100 description shown.description
  owner : Slot.Shows 500 owner shown.owner
  logo : Slot.Shows 100 logo shown.logo
  carried : ∀ (maxBatchKeys : Nat) (request : Request), request.Fetches "projects" id [] →
    ((⟨Reader.ofStore store, maxBatchKeys⟩ : Service).respond request).Carries 200
      (JsonFormat.toJson shown)

/-- What a store shows of an update with these texts and numbers. -/
structure Store.ShowsUpdate (store : Store) (id : Identifier)
    (projectId executableHash ipfsUrl deviceName : Bytes) (version successCount : UInt8)
    (shown : UpdateView) : Prop where
  read_eq : Update.read (.ofStore store) id =
    .ok (some (.ofTexts projectId executableHash ipfsUrl deviceName version successCount))
  id_eq : shown.id = id
  projectId : Slot.Shows 100 projectId shown.projectId
  executableHash : Slot.Shows 100 executableHash shown.executableHash
  ipfsUrl : Slot.Shows 100 ipfsUrl shown.ipfsUrl
  deviceName : Slot.Shows 100 deviceName shown.deviceName
  version_eq : shown.version = version
  successCount_eq : shown.successCount = successCount
  carried : ∀ (maxBatchKeys : Nat) (request : Request), request.Fetches "updates" id [] →
    ((⟨Reader.ofStore store, maxBatchKeys⟩ : Service).respond request).Carries 200
      (JsonFormat.toJson shown)

section

variable {store : Store} {id : Identifier}

/-- The bytes of a project are enough to show it. -/
theorem showsProject_of_stored {name description owner logo : Bytes}
    (hStored : store[Project.key id]? =
      some (ProjectRecord.ofTexts name description owner logo).encode) :
    store.ShowsProject id name description owner logo
      (.ofRecord id (.ofTexts name description owner logo)) := by
  have hDecode := ProjectRecord.decode_encode
    (ProjectRecord.ofTexts_fillsSlots name description owner logo)
  constructor
  case read_eq =>
    rw [Project.read, Reader.decoded_of_stored hStored, hDecode]
    rfl
  case carried =>
    intro maxBatchKeys request hFetches
    exact Presentation.project.respond_of_stored maxBatchKeys hFetches hStored hDecode
  case id_eq => rfl
  all_goals exact Slot.shows_text _ _

/-- The bytes of an update are enough to show it. -/
theorem showsUpdate_of_stored {projectId executableHash ipfsUrl deviceName : Bytes}
    {version successCount : UInt8}
    (hStored : store[Update.key id]? = some (UpdateRecord.ofTexts projectId executableHash ipfsUrl
      deviceName version successCount).encode) :
    store.ShowsUpdate id projectId executableHash ipfsUrl deviceName version successCount
      (.ofRecord id (.ofTexts projectId executableHash ipfsUrl deviceName version
        successCount)) := by
  have hDecode := UpdateRecord.decode_encode (UpdateRecord.ofTexts_fillsSlots projectId
    executableHash ipfsUrl deviceName version successCount)
  constructor
  case read_eq =>
    rw [Update.read, Reader.decoded_of_stored hStored, hDecode]
    rfl
  case carried =>
    intro maxBatchKeys request hFetches
    exact Presentation.update.respond_of_stored maxBatchKeys hFetches hStored hDecode
  case id_eq | version_eq | successCount_eq => rfl
  all_goals exact Slot.shows_text _ _

end

/-- A text survives a slot up to a cut between characters. Without the character of code zero in
it, what is read back from a slot of any width is the text if its bytes fit, and otherwise the
longest beginning of whole characters that fits, with one U+FFFD behind it exactly if bytes of
the slot are left over. Take any run from any store, whichever calls fail in it. Once a project
was published, and as long as nothing else is published under its identifier, it is read back,
and whoever asks the service for it is shown each of its texts by that rule, each in its own
width and whatever stands beside it. The same holds for updates. -/
theorem texts_survive_slots :
    (∀ (width : Nat) (text : String), '\x00' ∉ text.toList →
      Slot.text (Slot.pad (Utf8.encode text) width) = Slot.legible width text) ∧
    (∀ (width : Nat) (text : String),
      Utf8.IsLongestFitting width text.toList (Utf8.fitting width text.toList)) ∧
    ∀ (view : View) (steps : List LedgerStep) (policy : OverwritePolicy) (id : Identifier)
      (earlier later : List (LedgerStep × Except StorageError Outcome)),
    let (results, now) := runAll (steps.map LedgerStep.run) view
    let past := steps.zip results
    (∀ name description owner logo : Bytes,
      let record := ProjectRecord.ofTexts name description owner logo
      past = earlier ++ (.operate (.projectSet policy id record), .ok .done) :: later →
      (∀ policy other, (.operate (.projectSet policy id other), .ok .done) ∉ later) →
        ∃ shown, now.store.ShowsProject id name description owner logo shown) ∧
    ∀ (projectId executableHash ipfsUrl deviceName : Bytes) (version successCount : UInt8),
      let record := UpdateRecord.ofTexts projectId executableHash ipfsUrl deviceName version
        successCount
      past = earlier ++ (.operate (.updateSet policy id record), .ok .done) :: later →
      (∀ policy other, (.operate (.updateSet policy id other), .ok .done) ∉ later) →
        ∃ shown, now.store.ShowsUpdate id projectId executableHash ipfsUrl deviceName version
          successCount shown := by
  refine ⟨fun width text hNul => Slot.text_pad_encode hNul width,
    fun width text => Utf8.isLongestFitting_fitting width text.toList, ?_⟩
  intro view steps policy id earlier later
  constructor
  · intro name description owner logo record hPast hLater
    exact ⟨_, showsProject_of_stored (stored_until_next_project hPast hLater)⟩
  · intro projectId executableHash ipfsUrl deviceName version successCount record hPast hLater
    exact ⟨_, showsUpdate_of_stored (stored_until_next_update hPast hLater)⟩

/-- A name of 33 bytes loses its last character, which is shown as U+FFFD, and the description of
the same project is whole. -/
theorem name_cut_inside_character_shown :
    let name := String.ofList (List.replicate 31 'a') ++ "é"
    let record := ProjectRecord.ofTexts (Utf8.encode name) (Utf8.encode "é") [] []
    let now := (runAll ([.operate (.projectSet .reject default record),
      .operate (.projectSet .reject default (.ofTexts [80] [] [] []))].map LedgerStep.run)
      ⟨∅, Schedule.faultless, []⟩).2
    ∃ shown : ProjectView, shown.name = String.ofList (List.replicate 31 'a' ++ ['\ufffd']) ∧
      shown.description = "é" ∧
      ∀ (maxBatchKeys : Nat) (request : Request), request.Fetches "projects" default [] →
        ((⟨Reader.ofStore now.store, maxBatchKeys⟩ : Service).respond request).Carries 200
          (JsonFormat.toJson shown) := by
  intro name record now
  obtain ⟨-, -, hRuns⟩ := texts_survive_slots
  obtain ⟨hProjects, -⟩ := hRuns ⟨∅, Schedule.faultless, []⟩
    [.operate (.projectSet .reject default record),
      .operate (.projectSet .reject default (.ofTexts [80] [] [] []))] .reject default []
    [(.operate (.projectSet .reject default (.ofTexts [80] [] [] [])),
      .error (.alreadyExists "project" (Project.key default)))]
  obtain ⟨shown, hShown⟩ := hProjects (Utf8.encode name) (Utf8.encode "é") [] [] rfl (by simp)
  refine ⟨shown, ?_, ?_, hShown.carried⟩
  · rw [hShown.name.eq_legible name (by decide) rfl]
    decide
  · rw [hShown.description.eq_legible "é" (by decide) rfl]
    decide

end DeviceLedger
