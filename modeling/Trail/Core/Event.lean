/-
**Events, and how `Log` builds one from its options.**

`Event`, `Field`, `Level`, `Scope` and `Metadata` are the records of the core package. An option is
one of the source's option kinds with the data that kind carries. `buildEvent` is the body of
`Log` between the identifier and `enqueue`: one pass over the options, where every field option is
appended and every other option overwrites what an earlier one of its kind wrote.
`buildEvent_eq` says so: each attribute is the one of the last option of its kind.
-/

import Trail.Core.Identifier

namespace Trail

/-! ### Levels and fields -/

/-- `Level`, any `uint8`. -/
abbrev Level := UInt8

namespace Level

def debug : Level := 0
def info : Level := 1
def warn : Level := 2
def error : Level := 3

/-- `Level.String()`. -/
def text (level : Level) : GoString :=
  if level = debug then ascii "debug"
  else if level = info then ascii "info"
  else if level = warn then ascii "warn"
  else if level = error then ascii "error"
  else ascii "unknown"

/-- One of the four constants. -/
def Known (level : Level) : Prop := level = debug ∨ level = info ∨ level = warn ∨ level = error

end Level

/-- `FieldKind`; a number that is none of the constants is `other`. -/
inductive FieldKind
  | string
  | int
  | int64
  | bool
  | float64
  | duration
  | error
  | other
  deriving DecidableEq, Repr

/-- `Field`: the value is in `text` for the two textual kinds and in `num` for the others. -/
structure Field where
  key : GoString
  kind : FieldKind
  text : GoString := []
  num : UInt64 := 0
  deriving DecidableEq, Repr

/-- `field.Int64()`. -/
def Field.toInt64 (field : Field) : Int64 := field.num.toInt64

/-! ### Options -/

/-- `Option` by its kind, with the data of that kind. The zero option is `ignored`. -/
inductive LogOption
  | field (field : Field)
  | flow (id : Bytes 16)
  | execution (id : Bytes 16)
  | scope (entityType entityID : GoString)
  | entity (entityType entityID : GoString)
  | parent (id : Bytes 16)
  | level (level : Level)
  | parentExecution (id : Bytes 16)
  | retryOfExecution (id : Bytes 16)
  | executionAttempt (attempt : UInt32)
  | executionSource (source : GoString)
  | ignored
  deriving DecidableEq, Repr

namespace LogOption

/-- `String`. -/
def string (key value : GoString) : LogOption :=
  .field { key := key, kind := .string, text := value }

/-- `Int`; `int` has 64 bits. -/
def int (key : GoString) (value : Int64) : LogOption :=
  .field { key := key, kind := .int, num := value.toUInt64 }

/-- `Int64`. -/
def int64 (key : GoString) (value : Int64) : LogOption :=
  .field { key := key, kind := .int64, num := value.toUInt64 }

/-- `Bool`. -/
def bool (key : GoString) (value : Bool) : LogOption :=
  .field { key := key, kind := .bool, num := if value then 1 else 0 }

/-- `Float64`, of the number with the given IEEE-754 bits. -/
def float64 (key : GoString) (bits : UInt64) : LogOption :=
  .field { key := key, kind := .float64, num := bits }

/-- `Duration`. -/
def duration (key : GoString) (value : Int64) : LogOption :=
  .field { key := key, kind := .duration, num := value.toUInt64 }

/-- `Error`, of an error with the given text or of `nil`. -/
def error (err : Option GoString) : LogOption :=
  .field { key := ascii "error", kind := .error, text := err.getD (ascii "<nil>") }

/-- The strings of an option are valid UTF-8. -/
def IsUtf8 : LogOption → Prop
  | .field value => Utf8 value.key ∧ Utf8 value.text
  | .scope entityType entityID | .entity entityType entityID => Utf8 entityType ∧ Utf8 entityID
  | .executionSource source => Utf8 source
  | _ => True

end LogOption

/-! ### Events -/

/-- `Event`. -/
structure Event where
  id : EventID
  timestamp : Int64
  kind : GoString
  level : Level
  flowID : FlowID := Bytes.zero 16
  executionID : ExecutionID := Bytes.zero 16
  parentExecutionID : ExecutionID := Bytes.zero 16
  retryOfExecutionID : ExecutionID := Bytes.zero 16
  executionAttempt : UInt32 := 0
  executionSource : GoString := []
  scopeType : GoString := []
  scopeID : GoString := []
  entityType : GoString := []
  entityID : GoString := []
  parentID : EventID := Bytes.zero 16
  fields : List Field := []
  deriving DecidableEq, Repr

/-- `Metadata`. -/
structure Metadata where
  service : GoString
  environment : GoString
  version : GoString
  deriving DecidableEq, Repr

/-- `Batch`. -/
structure Batch where
  metadata : Metadata
  events : List Event
  deriving DecidableEq, Repr

/-- `Scope`. -/
structure Scope where
  type : GoString
  id : GoString
  deriving DecidableEq, Repr

/-- The `switch` of `Log` on one option. -/
def applyOption (event : Event) : LogOption → Event
  | .field field => { event with fields := event.fields ++ [field] }
  | .flow id => { event with flowID := id }
  | .execution id => { event with executionID := id }
  | .scope entityType entityID => { event with scopeType := entityType, scopeID := entityID }
  | .entity entityType entityID => { event with entityType := entityType, entityID := entityID }
  | .parent id => { event with parentID := id }
  | .level level => { event with level := level }
  | .parentExecution id => { event with parentExecutionID := id }
  | .retryOfExecution id => { event with retryOfExecutionID := id }
  | .executionAttempt attempt => { event with executionAttempt := attempt }
  | .executionSource source => { event with executionSource := source }
  | .ignored => event

/-- The event `Log(kind, options...)` builds, with the identifier and the clock reading it gets. -/
def buildEvent (id : EventID) (timestamp : Int64) (kind : GoString) (options : List LogOption) :
    Event :=
  options.foldl applyOption { id := id, timestamp := timestamp, kind := kind, level := Level.info }

/-! ### The last option of each kind -/

/-- The data of the last option that `pick` selects, or the default when there is none. -/
def lastOf {α : Type} (pick : LogOption → Option α) (default : α) (options : List LogOption) : α :=
  (options.filterMap pick).getLast?.getD default

theorem lastOf_concat {α : Type} (pick : LogOption → Option α) (default : α)
    (options : List LogOption) (option : LogOption) :
    lastOf pick default (options ++ [option]) =
      (pick option).getD (lastOf pick default options) := by
  unfold lastOf
  rw [List.filterMap_append]
  cases chosen : pick option with
  | none => simp [chosen]
  | some data => simp [chosen]

/-- What holds of the default and of everything `pick` can select holds of the last. -/
theorem lastOf_of_forall {α : Type} {holds : α → Prop} {pick : LogOption → Option α} {default : α}
    {options : List LogOption} (absent : holds default)
    (each : ∀ option ∈ options, ∀ data ∈ pick option, holds data) :
    holds (lastOf pick default options) := by
  unfold lastOf
  cases last : (options.filterMap pick).getLast? with
  | none => exact absent
  | some data =>
    obtain ⟨option, member, picked⟩ := List.mem_filterMap.mp (List.mem_of_getLast? last)
    exact each option member data picked

namespace LogOption

def field? : LogOption → Option Field
  | .field value => some value
  | _ => none

def flow? : LogOption → Option (Bytes 16)
  | .flow id => some id
  | _ => none

def execution? : LogOption → Option (Bytes 16)
  | .execution id => some id
  | _ => none

def scope? : LogOption → Option (GoString × GoString)
  | .scope entityType entityID => some (entityType, entityID)
  | _ => none

def entity? : LogOption → Option (GoString × GoString)
  | .entity entityType entityID => some (entityType, entityID)
  | _ => none

def parent? : LogOption → Option (Bytes 16)
  | .parent id => some id
  | _ => none

def level? : LogOption → Option Level
  | .level value => some value
  | _ => none

def parentExecution? : LogOption → Option (Bytes 16)
  | .parentExecution id => some id
  | _ => none

def retryOfExecution? : LogOption → Option (Bytes 16)
  | .retryOfExecution id => some id
  | _ => none

def executionAttempt? : LogOption → Option UInt32
  | .executionAttempt attempt => some attempt
  | _ => none

def executionSource? : LogOption → Option GoString
  | .executionSource source => some source
  | _ => none

/-- An option as the package lets an application build it: a `Field` has no exported members, so a
field option comes from one of the seven constructors. -/
inductive Public : LogOption → Prop
  | string (key value : GoString) : Public (.string key value)
  | int (key : GoString) (value : Int64) : Public (.int key value)
  | int64 (key : GoString) (value : Int64) : Public (.int64 key value)
  | bool (key : GoString) (value : Bool) : Public (.bool key value)
  | float64 (key : GoString) (bits : UInt64) : Public (.float64 key bits)
  | duration (key : GoString) (value : Int64) : Public (.duration key value)
  | error (err : Option GoString) : Public (.error err)
  | other {option : LogOption} (plain : option.field? = none) : Public option

/-- A field of a public option has one of the seven kinds, and its value is in the place its kind
says. -/
theorem Public.field {option : LogOption} (made : option.Public) {field : Field}
    (chosen : option.field? = some field) :
    field.kind ≠ .other ∧
      (field.kind = .string ∨ field.kind = .error → field.num = 0) ∧
      (field.kind ≠ .string → field.kind ≠ .error → field.text = []) := by
  cases made with
  | other plain =>
    rw [plain] at chosen
    cases chosen
  | _ =>
    cases chosen
    simp

end LogOption

/-- The event whose every attribute is that of the last option of its kind, and whose fields are
the field options in order. -/
def eventOf (id : EventID) (timestamp : Int64) (kind : GoString) (options : List LogOption) :
    Event where
  id := id
  timestamp := timestamp
  kind := kind
  level := lastOf LogOption.level? Level.info options
  flowID := lastOf LogOption.flow? (Bytes.zero 16) options
  executionID := lastOf LogOption.execution? (Bytes.zero 16) options
  parentExecutionID := lastOf LogOption.parentExecution? (Bytes.zero 16) options
  retryOfExecutionID := lastOf LogOption.retryOfExecution? (Bytes.zero 16) options
  executionAttempt := lastOf LogOption.executionAttempt? 0 options
  executionSource := lastOf LogOption.executionSource? [] options
  scopeType := (lastOf LogOption.scope? ([], []) options).1
  scopeID := (lastOf LogOption.scope? ([], []) options).2
  entityType := (lastOf LogOption.entity? ([], []) options).1
  entityID := (lastOf LogOption.entity? ([], []) options).2
  parentID := lastOf LogOption.parent? (Bytes.zero 16) options
  fields := options.filterMap LogOption.field?

/-- **The option fold of `Log`**: the last option of each kind wins and the fields keep their
order and their duplicates. -/
theorem buildEvent_eq (id : EventID) (timestamp : Int64) (kind : GoString)
    (options : List LogOption) :
    buildEvent id timestamp kind options = eventOf id timestamp kind options := by
  induction options using List.reverseRecOn with
  | nil => rfl
  | append_singleton options option ih =>
    have step : buildEvent id timestamp kind (options ++ [option]) =
        applyOption (eventOf id timestamp kind options) option := by
      rw [← ih, buildEvent, List.foldl_append]
      rfl
    rw [step]
    cases option <;>
      simp [applyOption, eventOf, lastOf_concat, LogOption.field?, LogOption.flow?,
        LogOption.execution?, LogOption.scope?, LogOption.entity?, LogOption.parent?,
        LogOption.level?, LogOption.parentExecution?, LogOption.retryOfExecution?,
        LogOption.executionAttempt?, LogOption.executionSource?]

end Trail
