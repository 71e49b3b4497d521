import MeshPipeline.EventStream.EventLog
import MeshPipeline.Library.Text
import MeshPipeline.Persistence.JobRepository

/-!
# A live stream and its reader

Publishers append to a job's log and publish to its channel; a screenshot is logged in one step and
published in another. A client follows the log over a socket, and connects again with the number it
got to.
-/

namespace MeshPipeline

/-! ## What a reader makes of an event -/

/-- The fields of an event that its projection and its reader look at. -/
structure EventFields where
  type : String
  image : Option String
  deriving DecidableEq, Repr

/-- The JSON text of an event, read, and written again without its image. -/
structure EventCodec where
  /-- `json.loads`. -/
  read : String → Option EventFields
  /-- `_durable_wire`, of the text. -/
  light : String → String
  read_light : ∀ t f, read t = some f → f.type = "screenshot" →
    read (light t) = some { f with image := none }
  light_eq : ∀ t, (∀ f, read t = some f → f.type ≠ "screenshot") → light t = t

/-- `EVENT_TYPES`. -/
def eventTypes : List String :=
  ["stage", "attempt", "note", "check", "action", "search", "file", "screenshot", "meshing",
    "meshed", "verdict", "closing", "reasoning", "rationale", "tool_call", "tool_result", "plan",
    "mesh_stage", "narrate", "receipt", "mesh_partial"]

inductive DisclosureMode
  | safe | raw
  deriving DecidableEq, Repr

/-- `MAX_IMAGE_BYTES`. -/
def maxImageBytes : Nat := 4000000

/-- `project_screenshot`. -/
def projectScreenshot (mode : DisclosureMode) (image : Option String) : Option String :=
  if mode = .raw then image.filter fun img => Text.strip img ≠ "" ∧ img.length ≤ maxImageBytes
  else none

/-- `project`, in the fields that a reader looks at. -/
def project (mode : DisclosureMode) (f : EventFields) : Option EventFields :=
  if f.type = "screenshot" then
    (projectScreenshot mode f.image).map fun img => { f with image := some img }
  else some f

/-- What `_send` does with a frame: the cursor after it, and what is sent. -/
def sendFrame (codec : EventCodec) (mode : DisclosureMode) (sent : Nat) (frame : StreamEvent) :
    Nat × Option EventFields :=
  match codec.read frame.event with
  | none => (sent, none)
  | some f =>
    if f.type ∉ eventTypes then (sent, none)
    else if frame.seq ≠ 0 ∧ frame.seq ≤ sent then (sent, none)
    else (if frame.seq ≠ 0 then frame.seq else sent, project mode f)

/-- A frame that a reader in this mode is shown. -/
def Shown (codec : EventCodec) (mode : DisclosureMode) (frame : StreamEvent) : Prop :=
  ∃ f ∈ codec.read frame.event, f.type ∈ eventTypes ∧ (project mode f).isSome

instance (codec : EventCodec) (mode : DisclosureMode) (frame : StreamEvent) :
    Decidable (Shown codec mode frame) :=
  inferInstanceAs (Decidable (∃ f ∈ codec.read frame.event, f.type ∈ eventTypes ∧
    (project mode f).isSome))

/-! ## The stream -/

inductive SocketPhase
  /-- Subscribed, with the backlog still to be read. -/
  | subscribed
  | replaying (backlog : List StreamEvent)
  /-- About to ask whether the job has ended. -/
  | checking
  | listening
  /-- A closing message was sent; `log` is the log as it was then. -/
  | closed (log : List StreamEvent)
  deriving DecidableEq, Repr

structure Socket where
  mode : DisclosureMode
  /-- The cursor that the client connected with. -/
  since : Nat
  /-- `_sent`. -/
  sent : Nat
  phase : SocketPhase
  /-- The confirmation of the subscription was read. -/
  confirmed : Bool
  queue : List StreamEvent
  deriving DecidableEq, Repr

structure StreamWorld where
  clock : Int
  keys : EventKeys
  /-- Frames that were logged without their image and are still to be published. -/
  unpublished : List StreamEvent
  /-- The job has ended. -/
  ended : Bool
  socket : Option Socket
  /-- What the client was shown, over all its sockets. -/
  received : List StreamEvent
  deriving DecidableEq, Repr

inductive StreamStep
  | tick (microseconds : Nat)
  | setFence (key : FenceKey)
  /-- The script of `_emit_once`. -/
  | emit (text opKey : String) (expected : Option Fingerprint)
  /-- The `publish` of `_emit_once`, which a screenshot has apart from the script. -/
  | publish (i : Nat)
  | endJob
  | connect (mode : DisclosureMode)
  | readBacklog
  /-- The next event of the backlog, or its end. -/
  | replay
  /-- `_is_terminal`, which reads nothing when the database cannot be reached. -/
  | check (readable : Bool)
  /-- `next_event`. -/
  | next
  /-- The client goes away, or the session reaches its cap. -/
  | disconnect
  deriving DecidableEq, Repr

namespace StreamWorld

def created (clock : Int) : StreamWorld := ⟨clock, .empty, [], false, none, []⟩

def log (w : StreamWorld) : List StreamEvent := (w.keys.liveLog w.clock).map (·.entry)

/-- The last number that the client received. -/
def cursor (w : StreamWorld) : Nat := (w.received.getLast?.map (·.seq)).getD 0

/-- A message of the channel reaches who is subscribed. -/
def deliver (w : StreamWorld) (frame : StreamEvent) : StreamWorld :=
  { w with socket := w.socket.map fun s => { s with queue := s.queue ++ [frame] } }

/-- A frame is handed to `_send`; a closing one ends the socket. -/
def send (codec : EventCodec) (w : StreamWorld) (s : Socket) (frame : StreamEvent) : StreamWorld :=
  match sendFrame codec s.mode s.sent frame with
  | (sent, none) => { w with socket := some { s with sent := sent } }
  | (sent, some shown) =>
    { w with
      received := w.received ++ [frame]
      socket := some { s with
        sent := sent
        phase := if shown.type = "closing" then .closed w.log else s.phase } }

def step (codec : EventCodec) (ttl : Int) (w : StreamWorld) : StreamStep → Option StreamWorld
  | .tick n => some { w with clock := w.clock + n }
  | .setFence key => some { w with keys := { w.keys with fence := key } }
  | .emit text opKey expected =>
    let (result, keys) := w.keys.emit ⟨codec.light text, opKey, expected⟩ ttl w.clock
    match result with
    | .appended seq =>
      if codec.light text = text then some ({ w with keys := keys }.deliver ⟨text, seq⟩)
      else some { w with keys := keys, unpublished := w.unpublished ++ [⟨text, seq⟩] }
    | _ => some w
  | .publish i =>
    w.unpublished[i]?.map fun frame =>
      { w with unpublished := w.unpublished.eraseIdx i }.deliver frame
  | .endJob => some { w with ended := true }
  | .connect mode =>
    some { w with socket := some ⟨mode, w.cursor, w.cursor, .subscribed, false, []⟩ }
  | .readBacklog =>
    match w.socket with
    | some s =>
      if s.phase = .subscribed then some { w with socket := some { s with phase := .replaying w.log } }
      else none
    | none => none
  | .replay =>
    match w.socket with
    | some s =>
      match s.phase with
      | .replaying (frame :: backlog) =>
        some (w.send codec { s with phase := .replaying backlog } frame)
      | .replaying [] => some { w with socket := some { s with phase := .checking } }
      | _ => none
    | none => none
  | .check readable =>
    match w.socket with
    | some s =>
      if s.phase ≠ .checking then none
      else if readable ∧ w.ended then some { w with socket := some { s with phase := .closed w.log } }
      else some { w with socket := some { s with phase := .listening } }
    | none => none
  | .next =>
    match w.socket with
    | some s =>
      if s.phase ≠ .listening then none
      else if !s.confirmed then
        some { w with socket := some { s with confirmed := true, phase := .checking } }
      else
        match s.queue with
        | [] => some { w with socket := some { s with phase := .checking } }
        | frame :: queue => some (w.send codec { s with queue := queue } frame)
    | none => none
  | .disconnect => some { w with socket := none }

def machine (codec : EventCodec) (ttl : Int) : Transition.Machine StreamWorld StreamStep :=
  ⟨step codec ttl⟩

end StreamWorld

end MeshPipeline
