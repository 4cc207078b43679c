import Hitsuji.Lib.Bracket
import Hitsuji.Rssl.WellFormed

set_option autoImplicit false

/-! # What a message says

On the wire a message is a bracketed text: containers and their entries are begun and completed, and
primitives stand in between. A reader takes it apart again without knowing how it was encoded. Every
well-formed sequence of calls is read as one message, and the text that is read is what the calls
wrote. -/

namespace Hitsuji

open Bracket

/-! ## The text of a message -/

/-- What a message contains. -/
abbrev Content := Forest EncodeCall EncodeCall

/-- The call that completes what another one begins. -/
def EncodeCall.closer : EncodeCall → EncodeCall
  | .msgInit _ _ => .msgComplete
  | .elementListInit _ => .elementListComplete
  | .elementEntryInit _ _ => .elementEntryComplete
  | .fieldListInit => .fieldListComplete
  | .arrayInit _ _ => .arrayComplete
  | .mapInit _ _ => .mapComplete
  | .mapEntryInit _ _ => .mapEntryComplete
  | .filterListInit _ _ => .filterListComplete
  | .filterEntryInit _ => .filterEntryComplete
  | c => c

/-- What a call writes: the buffer and the version are the iterator's, validation writes nothing. -/
def EncodeCall.token (c : EncodeCall) : Option (Token EncodeCall EncodeCall EncodeCall) :=
  match c with
  | .setBuffer _ | .setRwfVersion _ _ | .validateMsg _ => none
  | .msgInit _ _ | .elementListInit _ | .elementEntryInit _ _ | .fieldListInit | .arrayInit _ _
  | .mapInit _ _ | .mapEntryInit _ _ | .filterListInit _ _ | .filterEntryInit _ => some (.opens c)
  | .msgComplete | .elementListComplete | .elementEntryComplete | .fieldListComplete
  | .arrayComplete | .mapComplete | .mapEntryComplete | .filterListComplete
  | .filterEntryComplete => some (.closes c)
  | .msg _ | .msgKeyAttribComplete | .elementEntry _ _ | .fieldEntry _ _ | .arrayEntry _ =>
      some (.entry c)

/-- What a sequence of calls puts on the wire. -/
def wire (calls : List EncodeCall) : List (Token EncodeCall EncodeCall EncodeCall) :=
  calls.filterMap EncodeCall.token

/-- What is read from it. -/
def contentOf (calls : List EncodeCall) : Option Content :=
  Bracket.read EncodeCall.closer (wire calls)

/-- One message, with attributes and payload in `inner` if it has any. -/
inductive IsMessage (m : RsslMsg) : Content → Prop where
  | group (maxSize : Nat) (inner : Content) : IsMessage m (.group (.msgInit m maxSize) inner .nil)
  | entry : IsMessage m (.entry (.msg m) .nil)

/-! ## Well-formed messages are read -/

/-- The call that completes what was begun. -/
def Frame.closer : Frame → EncodeCall
  | .attrib _ _ | .payload _ _ => .msgComplete
  | .elementList => .elementListComplete
  | .elementEntry _ => .elementEntryComplete
  | .fieldList => .fieldListComplete
  | .array _ => .arrayComplete
  | .map _ => .mapComplete
  | .mapEntry _ => .mapEntryComplete
  | .filterList _ _ => .filterListComplete
  | .filterEntry _ => .filterEntryComplete

/-- The message that an attribute or a payload belongs to. -/
def Frame.message : Frame → Option RsslMsg
  | .attrib m _ | .payload m _ => some m
  | _ => none

/-- How far a reader is after a call. -/
def advance (r : Reading EncodeCall EncodeCall) (c : EncodeCall) :
    Option (Reading EncodeCall EncodeCall) :=
  match c.token with
  | none => some r
  | some t => r.step EncodeCall.closer t

theorem foldlM_wire (calls : List EncodeCall) (r : Reading EncodeCall EncodeCall) :
    (wire calls).foldlM (Reading.step EncodeCall.closer) r = calls.foldlM advance r := by
  induction calls generalizing r with
  | nil => rfl
  | cons c rest ih =>
      rw [wire, List.filterMap_cons, List.foldlM_cons, advance]
      cases c.token with
      | none => exact ih r
      | some t =>
          rw [List.foldlM_cons]
          exact congrArg _ (funext ih)

/-- The groups that a reader finds open are the frames that are, the first of them the message. -/
structure Follows (m : RsslMsg) (frames : List Frame) (r : Reading EncodeCall EncodeCall) :
    Prop where
  groups : r.levels.map (fun level => level.1.closer) = frames.map Frame.closer
  bottom : ∃ maxSize, r.levels.getLast? = some (.msgInit m maxSize, .nil)
  message : (frames.map Frame.message).getLast? = some (some m)

/-- Frames of the same kind, filled or not. -/
def SameKind (frame frame' : Frame) : Prop :=
  frame'.closer = frame.closer ∧ frame'.message = frame.message

theorem sameKind_fill (t : DataType) (frame filled : Frame) (h : frame.fill t = some filled) :
    SameKind frame filled := by
  unfold Frame.fill at h
  split at h
  case h_6 => exact absurd h (by simp)
  all_goals
    obtain ⟨-, h⟩ := Option.ite_none_right_eq_some.mp h
    obtain rfl := Option.some.inj h
    exact ⟨rfl, rfl⟩

/-- A call that begins something in a frame. -/
theorem follows_opens (m : RsslMsg) (outer outer' inner : Frame) (frames : List Frame)
    (c : EncodeCall) (r : Reading EncodeCall EncodeCall) (hr : Follows m (outer :: frames) r)
    (htoken : c.token = some (.opens c)) (hinner : c.closer = inner.closer)
    (houter : SameKind outer outer') :
    ∃ r', advance r c = some r' ∧ Follows m (inner :: outer' :: frames) r' := by
  refine ⟨⟨(c, r.current) :: r.levels, .nil⟩, ?_, ?_, ?_, ?_⟩
  · rw [advance, htoken]
    rfl
  · rw [List.map_cons, List.map_cons, List.map_cons, hr.groups, hinner, houter.1, List.map_cons]
  · obtain ⟨maxSize, hlast⟩ := hr.bottom
    exact ⟨maxSize, by rw [List.getLast?_cons, hlast]; rfl⟩
  · rw [List.map_cons, List.map_cons, houter.2, ← List.map_cons, List.getLast?_cons, hr.message]
    rfl

/-- A primitive. -/
theorem follows_entry (m : RsslMsg) (frames : List Frame) (c : EncodeCall)
    (r : Reading EncodeCall EncodeCall) (hr : Follows m frames r)
    (htoken : c.token = some (.entry c)) :
    ∃ r', advance r c = some r' ∧ Follows m frames r' := by
  refine ⟨⟨r.levels, r.current.append (.entry c .nil)⟩, ?_, hr.groups, hr.bottom, hr.message⟩
  rw [advance, htoken]
  rfl

/-- A call that completes what was begun last, other than the message. -/
theorem follows_closes (m : RsslMsg) (frame : Frame) (frames : List Frame) (c : EncodeCall)
    (r : Reading EncodeCall EncodeCall) (hr : Follows m (frame :: frames) r)
    (htoken : c.token = some (.closes c)) (hframe : frame.closer = c) (hc : c ≠ .msgComplete) :
    ∃ r', advance r c = some r' ∧ Follows m frames r' := by
  obtain ⟨levels, current⟩ := r
  obtain ⟨hgroups, ⟨maxSize, hlast⟩, hmessage⟩ := hr
  match levels, frames with
  | [], _ => exact absurd hgroups (by simp)
  | [level], _ =>
      -- the message is not completed yet
      obtain rfl := Option.some.inj hlast
      exact absurd (hframe.symm.trans (List.cons.inj hgroups).1.symm) hc
  | _ :: _ :: _, [] => exact absurd hgroups (by simp)
  | level :: next :: levels, frame' :: frames =>
      obtain ⟨hlevel, hrest⟩ := List.cons.inj hgroups
      refine ⟨⟨next :: levels, level.2.append (.group level.1 current .nil)⟩, ?_, hrest,
        ⟨maxSize, hlast⟩, hmessage⟩
      rw [advance, htoken]
      exact if_pos (hlevel.trans hframe)

/-- **A call that nests is read.** -/
theorem follows_nest (m : RsslMsg) (frames frames' : List Frame) (c : EncodeCall)
    (r : Reading EncodeCall EncodeCall) (hr : Follows m frames r)
    (h : nest c frames = some frames') :
    ∃ r', advance r c = some r' ∧ Follows m frames' r' := by
  have hbegin : ∀ t inner, begin t inner frames = some frames' → c.token = some (.opens c) →
      c.closer = inner.closer → ∃ r', advance r c = some r' ∧ Follows m frames' r' := by
    intro t inner hbegin htoken hinner
    cases frames with
    | nil => exact absurd hbegin (by simp [begin])
    | cons outer rest =>
        obtain ⟨filled, hfill, rfl⟩ := Option.map_eq_some_iff.mp hbegin
        exact follows_opens m outer filled inner rest c r hr htoken hinner
          (sameKind_fill t outer filled hfill)
  unfold nest at h
  split at h
  case h_20 => exact absurd h (by simp)
  case h_1 | h_6 | h_9 | h_12 | h_16 => exact hbegin _ _ h rfl rfl
  case h_10 =>
    obtain ⟨-, h⟩ := Option.ite_none_right_eq_some.mp h
    obtain rfl := Option.some.inj h
    exact follows_entry m _ _ r hr rfl
  case h_2 | h_7 =>
    obtain rfl := Option.some.inj h
    exact follows_entry m _ _ r hr rfl
  case h_3 | h_13 | h_17 =>
    obtain rfl := Option.some.inj h
    exact follows_opens m _ _ _ _ _ r hr rfl rfl ⟨rfl, rfl⟩
  all_goals
    obtain rfl := Option.some.inj h
    exact follows_closes m _ _ _ r hr rfl rfl (by simp)

/-- What a reader has found so far. -/
def Tracks : Progress → Reading EncodeCall EncodeCall → Prop
  | .cleared, r | .buffered, r | .versioned, r => r = ⟨[], .nil⟩
  | .open frames, r => ∃ m, Follows m frames r
  | .complete m, r => r.levels = [] ∧ IsMessage m r.current

/-- A message is completed. -/
theorem tracks_complete (m m' : RsslMsg) (due : Option DataType)
    (r : Reading EncodeCall EncodeCall) (hr : Follows m [.payload m' due] r) :
    ∃ r', advance r .msgComplete = some r' ∧ Tracks (.complete m') r' := by
  obtain ⟨levels, current⟩ := r
  obtain ⟨hgroups, ⟨maxSize, hlast⟩, hmessage⟩ := hr
  obtain rfl : m' = m := Option.some.inj (Option.some.inj hmessage)
  match levels with
  | [] => exact absurd hgroups (by simp)
  | _ :: _ :: _ => exact absurd hgroups (by simp)
  | [level] =>
      obtain rfl := Option.some.inj hlast
      exact ⟨⟨[], .group (.msgInit m' maxSize) current .nil⟩, rfl, rfl, .group _ _⟩

theorem tracks_step (p p' : Progress) (c : EncodeCall) (r : Reading EncodeCall EncodeCall)
    (hr : Tracks p r) (h : p.step c = some p') : ∃ r', advance r c = some r' ∧ Tracks p' r' := by
  unfold Progress.step at h
  split at h
  case h_1 | h_2 =>
    obtain rfl := Option.some.inj h
    exact ⟨r, rfl, hr⟩
  case h_3 =>
    obtain ⟨-, h⟩ := Option.ite_none_right_eq_some.mp h
    obtain rfl := Option.some.inj h
    obtain rfl : r = ⟨[], .nil⟩ := hr
    exact ⟨_, rfl, rfl, .entry⟩
  case h_4 m maxSize =>
    obtain rfl : r = ⟨[], .nil⟩ := hr
    have hopen : ∀ frame : Frame, frame.closer = .msgComplete → frame.message = some m →
        Follows m [frame] ⟨[(.msgInit m maxSize, .nil)], .nil⟩ := fun frame hcloser hmessage =>
      ⟨congrArg (fun c => [c]) hcloser.symm, ⟨maxSize, rfl⟩, congrArg some hmessage⟩
    split at h
    · obtain rfl := Option.some.inj h
      exact ⟨_, rfl, m, hopen _ rfl rfl⟩
    · obtain rfl := Option.some.inj h
      exact ⟨_, rfl, m, hopen _ rfl rfl⟩
  case h_5 m =>
    obtain rfl := Option.some.inj h
    obtain ⟨m', hfollows⟩ := hr
    obtain ⟨r', hstep, hnext⟩ := follows_entry m' _ .msgKeyAttribComplete r hfollows rfl
    exact ⟨r', hstep, m', hnext.groups, hnext.bottom, hnext.message⟩
  case h_6 m =>
    obtain rfl := Option.some.inj h
    obtain ⟨m', hfollows⟩ := hr
    exact tracks_complete m' m none r hfollows
  case h_7 =>
    obtain ⟨frames', hnest, rfl⟩ := Option.map_eq_some_iff.mp h
    obtain ⟨m, hfollows⟩ := hr
    obtain ⟨r', hstep, hnext⟩ := follows_nest m _ frames' c r hfollows hnest
    exact ⟨r', hstep, m, hnext⟩
  case h_8 =>
    obtain ⟨-, h⟩ := Option.ite_none_right_eq_some.mp h
    obtain rfl := Option.some.inj h
    exact ⟨r, rfl, hr⟩
  case h_9 => exact absurd h (by simp)

/-- **A well-formed message is read as one message, and its text is what was written.** -/
theorem contentOf_wellFormed (m : RsslMsg) (calls : List EncodeCall) (h : WellFormed m calls) :
    ∃ content, contentOf calls = some content ∧ IsMessage m content
      ∧ content.spell EncodeCall.closer = wire calls := by
  have hrun : ∀ (p p' : Progress) (r : Reading EncodeCall EncodeCall) (calls : List EncodeCall),
      Tracks p r → calls.foldlM Progress.step p = some p' →
        ∃ r', calls.foldlM advance r = some r' ∧ Tracks p' r' := by
    intro p p' r calls hr hcalls
    induction calls generalizing p r with
    | nil =>
        obtain rfl := Option.some.inj hcalls
        exact ⟨r, rfl, hr⟩
    | cons c rest ih =>
        rw [List.foldlM_cons] at hcalls
        obtain ⟨next, hstep, hrest⟩ := Option.bind_eq_some_iff.mp hcalls
        obtain ⟨r', hadvance, hnext⟩ := tracks_step p next c r hr hstep
        rw [List.foldlM_cons, hadvance]
        exact ih next r' hnext hrest
  obtain ⟨⟨levels, current⟩, hread, hlevels, hmessage⟩ := hrun .cleared (.complete m) ⟨[], .nil⟩
    calls rfl h
  obtain rfl : levels = [] := hlevels
  have hcontent : contentOf calls = some current := by
    rw [contentOf, Bracket.read, foldlM_wire, hread]
    rfl
  exact ⟨current, hcontent, hmessage, (read_eq_some_iff _ _ _).mp hcontent⟩

/-! ## Containers -/

/-- What an element is: a primitive or an array. -/
inductive ElementData where
  | value (v : Value)
  | array (values : List Value)
  deriving DecidableEq

/-- The elements of a list in order. -/
abbrev Elements := List (ElementName × ElementData)

/-- What an entry of a map says of a service. -/
structure ServiceEntry where
  action : MapAction
  serviceId : UInt64
  filters : List (FilterId × Elements)
  deriving DecidableEq

def readValues : Content → Option (List Value)
  | .nil => some []
  | .entry (.arrayEntry v) next => (readValues next).map (v :: ·)
  | _ => none

def readElements : Content → Option Elements
  | .nil => some []
  | .entry (.elementEntry element v) next =>
      (readElements next).map ((element, .value v) :: ·)
  | .group (.elementEntryInit element .array) (.group (.arrayInit _ _) inner .nil) next =>
      (readValues inner).bind fun values =>
        (readElements next).map ((element, .array values) :: ·)
  | _ => none

def readFilters : Content → Option (List (FilterId × Elements))
  | .nil => some []
  | .group (.filterEntryInit id) (.group (.elementListInit _) inner .nil) next =>
      (readElements inner).bind fun elements => (readFilters next).map ((id, elements) :: ·)
  | _ => none

def readServices : Content → Option (List ServiceEntry)
  | .nil => some []
  | .group (.mapEntryInit action key) (.group (.filterListInit .elementList _) inner .nil) next =>
      (readFilters inner).bind fun filters =>
        (readServices next).map (⟨action, key, filters⟩ :: ·)
  | _ => none

/-- The services in a source directory message. -/
def directoryOf (calls : List EncodeCall) : Option (List ServiceEntry) :=
  (contentOf calls).bind fun
    | .group (.msgInit _ _) (.group (.mapInit .uint .filterList) inner .nil) .nil =>
        readServices inner
    | _ => none

end Hitsuji
