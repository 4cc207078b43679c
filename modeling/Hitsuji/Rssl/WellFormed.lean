import Hitsuji.Rssl.Encode
import Mathlib.Data.List.Basic

set_option autoImplicit false

/-! # Well-formed messages

RSSL writes down whatever an encode iterator is told. What a reader can make sense of is a message
whose containers are closed in the order opposite to that in which they were opened, with entries
only in containers of their kind, and contents of the type announced before them: by the message, by
an entry, or by the container. `Progress.step` reads the calls on an iterator against these rules; a
sequence of calls is a well-formed message if it is read to its end. -/

namespace Hitsuji

open ByteBuffer

/-- The data type of a primitive. -/
def Value.dataType : Value → DataType
  | .uint _ => .uint
  | .asciiString _ => .asciiString
  | .rmtesString _ => .rmtesString
  | .real _ _ | .blankReal | .doubleToReal _ _ => .real
  | .qosTickByTickRealtime => .qos

/-- Something begun and not yet complete. An entry has a content of its type due, or is filled. -/
inductive Frame where
  /-- the attribute of a message key, of the announced type -/
  | attrib (m : RsslMsg) (due : Option DataType)
  /-- the payload of a message -/
  | payload (m : RsslMsg) (due : Option DataType)
  | elementList
  | elementEntry (due : Option DataType)
  | fieldList
  | array (primitiveType : DataType)
  | map (containerType : DataType)
  | mapEntry (due : Option DataType)
  /-- with as many entries to come as were announced -/
  | filterList (containerType : DataType) (ahead : Nat)
  | filterEntry (due : Option DataType)
  deriving DecidableEq

/-- How far an iterator is; the frame begun last comes first. -/
inductive Progress where
  | cleared
  | buffered
  | versioned
  | open (frames : List Frame)
  | complete (m : RsslMsg)
  deriving DecidableEq

/-- The payload announced by a message. -/
def RsslMsg.due (m : RsslMsg) : Option DataType :=
  if m.containerType = .noData then none else some m.containerType

/-- A content of this type where it is due. -/
def Frame.fill (t : DataType) : Frame → Option Frame
  | .attrib m (some due) => if due = t then some (.attrib m none) else none
  | .payload m (some due) => if due = t then some (.payload m none) else none
  | .elementEntry (some due) => if due = t then some (.elementEntry none) else none
  | .mapEntry (some due) => if due = t then some (.mapEntry none) else none
  | .filterEntry (some due) => if due = t then some (.filterEntry none) else none
  | _ => none

/-- Begin a container of this type. -/
def begin (t : DataType) (inner : Frame) : List Frame → Option (List Frame)
  | [] => none
  | outer :: frames => (outer.fill t).map fun filled => inner :: filled :: frames

/-- A call within a message. -/
def nest : EncodeCall → List Frame → Option (List Frame)
  | .elementListInit _, frames => begin .elementList .elementList frames
  | .elementEntry _ _, .elementList :: frames => some (.elementList :: frames)
  | .elementEntryInit _ t, .elementList :: frames =>
      some (.elementEntry (some t) :: .elementList :: frames)
  | .elementEntryComplete, .elementEntry none :: frames => some frames
  | .elementListComplete, .elementList :: frames => some frames
  | .fieldListInit, frames => begin .fieldList .fieldList frames
  | .fieldEntry _ _, .fieldList :: frames => some (.fieldList :: frames)
  | .fieldListComplete, .fieldList :: frames => some frames
  | .arrayInit t _, frames => begin .array (.array t) frames
  | .arrayEntry v, .array t :: frames =>
      if v.dataType = t then some (.array t :: frames) else none
  | .arrayComplete, .array _ :: frames => some frames
  | .mapInit _ t, frames => begin .map (.map t) frames
  | .mapEntryInit _ _, .map t :: frames => some (.mapEntry (some t) :: .map t :: frames)
  | .mapEntryComplete, .mapEntry none :: frames => some frames
  | .mapComplete, .map _ :: frames => some frames
  | .filterListInit t ahead, frames => begin .filterList (.filterList t ahead) frames
  | .filterEntryInit _, .filterList t (ahead + 1) :: frames =>
      some (.filterEntry (some t) :: .filterList t ahead :: frames)
  | .filterEntryComplete, .filterEntry none :: frames => some frames
  | .filterListComplete, .filterList _ 0 :: frames => some frames
  | _, _ => none

/-- A call on an iterator: a buffer and a version first, then one message. -/
def Progress.step : Progress → EncodeCall → Option Progress
  | .cleared, .setBuffer _ => some .buffered
  | .buffered, .setRwfVersion _ _ => some .versioned
  | .versioned, .msg m =>
      if m.containerType = .noData ∧ m.msgKey.flags.hasAttrib = false then some (.complete m)
      else none
  | .versioned, .msgInit m _ =>
      if m.msgKey.flags.hasAttrib then
        some (.open [.attrib m (some m.msgKey.attribContainerType)])
      else some (.open [.payload m m.due])
  | .open [.attrib m none], .msgKeyAttribComplete => some (.open [.payload m m.due])
  | .open [.payload m none], .msgComplete => some (.complete m)
  | .open frames, c => (nest c frames).map .open
  | .complete m, .validateMsg m' => if m' = m then some (.complete m) else none
  | _, _ => none

/-- The calls encode the message, and nothing is left open. -/
def WellFormed (m : RsslMsg) (calls : List EncodeCall) : Prop :=
  calls.foldlM Progress.step .cleared = some (.complete m)

instance (m : RsslMsg) (calls : List EncodeCall) : Decidable (WellFormed m calls) :=
  inferInstanceAs (Decidable (_ = _))

/-! ## Reading calls -/

/-- Reading these calls within a message leads from some frames to others. -/
def Reads (frames : List Frame) (calls : List EncodeCall) (frames' : List Frame) : Prop :=
  calls.foldlM (fun frames c => nest c frames) frames = some frames'

theorem reads_nil (frames : List Frame) : Reads frames [] frames :=
  rfl

theorem reads_append (frames frames' frames'' : List Frame) (calls calls' : List EncodeCall)
    (h : Reads frames calls frames') (h' : Reads frames' calls' frames'') :
    Reads frames (calls ++ calls') frames'' := by
  rw [Reads, List.foldlM_append, show calls.foldlM _ frames = some frames' from h]
  exact h'

/-- Entries, each read where the one before was. -/
theorem reads_entries {α : Type} (frames : List Frame) (entry : α → EncodeCall) (values : List α)
    (h : ∀ v ∈ values, nest (entry v) frames = some frames) :
    Reads frames (values.map entry) frames := by
  induction values with
  | nil => exact reads_nil frames
  | cons v rest ih =>
      have hrest := ih fun v' hv' => h v' (List.mem_cons_of_mem v hv')
      rw [Reads, List.map_cons, List.foldlM_cons, h v List.mem_cons_self]
      exact hrest

/-- What can be read within a message does not end it. -/
theorem step_open (frames frames' : List Frame) (c : EncodeCall)
    (h : nest c frames = some frames') : (Progress.open frames).step c = some (.open frames') := by
  unfold Progress.step
  split
  case h_5 => exact absurd h (by simp [nest])
  case h_6 => exact absurd h (by simp [nest])
  case h_7 =>
    next hopen _ _ =>
      obtain rfl := Progress.open.inj hopen
      rw [h]
      rfl
  all_goals simp_all

theorem open_reads (frames frames' : List Frame) (calls : List EncodeCall)
    (h : Reads frames calls frames') :
    calls.foldlM Progress.step (.open frames) = some (.open frames') := by
  induction calls generalizing frames with
  | nil =>
      obtain rfl := Option.some.inj h
      rfl
  | cons c rest ih =>
      rw [Reads, List.foldlM_cons] at h
      obtain ⟨next, hnext, hrest⟩ := Option.bind_eq_some_iff.mp h
      rw [List.foldlM_cons, step_open frames next c hnext]
      exact ih next hrest

/-- A message with a payload and no attribute, encoded in between. -/
theorem wellFormed_payload (m : RsslMsg) (capacity : Nat) (major minor : UInt8) (maxSize : Nat)
    (t : DataType) (calls last : List EncodeCall) (hcontainer : m.containerType = t)
    (hpayload : t ≠ .noData) (hattrib : m.msgKey.flags.hasAttrib = false)
    (hreads : Reads [.payload m (some t)] calls [.payload m none])
    (hlast : last = [] ∨ last = [.validateMsg m]) :
    WellFormed m ([.setBuffer capacity, .setRwfVersion major minor, .msgInit m maxSize]
      ++ calls ++ [.msgComplete] ++ last) := by
  have hprologue : [EncodeCall.setBuffer capacity, .setRwfVersion major minor,
      .msgInit m maxSize].foldlM Progress.step .cleared
        = some (.open [.payload m (some t)]) := by
    simp [Progress.step, hattrib, RsslMsg.due, hcontainer, hpayload]
  have hcomplete : ([EncodeCall.msgComplete] ++ last).foldlM Progress.step
      (.open [.payload m none]) = some (.complete m) := by
    rcases hlast with rfl | rfl
    · rfl
    · simp [Progress.step]
  rw [WellFormed, List.append_assoc, List.foldlM_append, List.foldlM_append, hprologue]
  change (calls.foldlM Progress.step (.open [.payload m (some t)])).bind _ = _
  rw [open_reads _ _ calls hreads]
  exact hcomplete

/-- A message without contents. -/
theorem wellFormed_msg (m : RsslMsg) (capacity : Nat) (major minor : UInt8)
    (last : List EncodeCall) (hcontainer : m.containerType = .noData)
    (hattrib : m.msgKey.flags.hasAttrib = false) (hlast : last = [] ∨ last = [.validateMsg m]) :
    WellFormed m ([.setBuffer capacity, .setRwfVersion major minor, .msg m] ++ last) := by
  have hmsg : [EncodeCall.setBuffer capacity, .setRwfVersion major minor, .msg m].foldlM
      Progress.step .cleared = some (.complete m) := by
    simp [Progress.step, hcontainer, hattrib]
  rw [WellFormed, List.foldlM_append, hmsg]
  rcases hlast with rfl | rfl
  · rfl
  · simp [Progress.step]

end Hitsuji
