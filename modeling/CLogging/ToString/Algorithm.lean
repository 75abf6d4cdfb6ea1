import CLogging.Context.Basic

/-!
# Printing the properties of a context

`log_n_properties` walks over an array of pairs and prints them into what is left of a buffer. It
follows the field counts in the struct pairs and never looks at the end of the array.
-/

namespace CLogging

open C Printf

/-! ### Printing calls -/

/-- The places where the rendering of a log line calls a printing function. -/
inductive PrintSite where
  | header | structOpen | structClose | leafName | leafValue | message
  deriving DecidableEq

/-- A failed call of a printing function: its negative result, and what it stored before. -/
structure Failure where
  result   : ℤ
  negative : result < 0
  text     : List UInt8

/-- Which calls fail. A call is known by its place and the index of the pair it prints. -/
abbrev PrintEnv := PrintSite → ℕ → Option Failure

/-- A call of a printing function, as it behaves unless it fails. -/
structure PrintCall where
  site   : PrintSite
  index  : ℕ
  writer : Writer

/-- What a call does. -/
def PrintEnv.apply (env : PrintEnv) (call : PrintCall) : Writer :=
  match env call.site call.index with
  | none         => call.writer
  | some failure => fun room => (failure.result, stored failure.text room)

/-! ### `log_n_properties` -/

/-- A pair of the array as a reader uses it: its name, its type, and the memory its value points
to. -/
structure PropertyView where
  name   : CString
  type   : LogContextPropertyTypeIf
  memory : List UInt8

/-- The format `" %s%s\x7b"` for a struct. -/
def structOpenText (name : CString) : List UInt8 :=
  ascii " " ++ name.bytes ++ (if name.bytes = [] then [] else ascii "=") ++ ascii "\x7b"

/-- The format for the end of a struct. -/
def structCloseText : List UInt8 := ascii " \x7d"

/-- `" %s="`. -/
def leafNameText (name : CString) : List UInt8 := ascii " " ++ name.bytes ++ ascii "="

def PropertyView.openCall (p : PropertyView) (index : ℕ) : PrintCall :=
  ⟨.structOpen, index, snprintf (structOpenText p.name)⟩

def PropertyView.closeCall (_ : PropertyView) (index : ℕ) : PrintCall :=
  ⟨.structClose, index, snprintf structCloseText⟩

def PropertyView.nameCall (p : PropertyView) (index : ℕ) : PrintCall :=
  ⟨.leafName, index, snprintf (leafNameText p.name)⟩

def PropertyView.valueCall (p : PropertyView) (index : ℕ) : PrintCall :=
  ⟨.leafValue, index, p.type.toString p.memory⟩

/-- The number of fields of a struct. -/
def PropertyView.fieldCount (p : PropertyView) : ℕ := (p.memory.headD 0).toNat

/-- What `log_n_properties` does one after the other: it reads the pair with some index, or calls a
printing function with some room left, which stores some bytes and returns a result. -/
inductive PrintEvent where
  | read (index : ℕ)
  | call (site : PrintSite) (index room : ℕ) (result : ℤ) (bytes : List UInt8)
  deriving DecidableEq

/-- The variables of `log_n_properties`, and what it has done so far. -/
structure PrintState where
  cursor : Cursor
  result : ℤ
  i      : ℕ
  added  : ℕ
  log    : List PrintEvent

/-- `UPDATE_BUFFER_AND_SIZE`. `none` where the conversion of the size to `int` is negative: the
pointer would leave the buffer. -/
def PrintState.update (s : PrintState) (n : ℤ) : Option PrintState :=
  if int s.cursor.room < 0 then none
  else
    some { s with
      cursor := s.cursor.advance (min n (int s.cursor.room)).toNat
      result := s.result + min n (int s.cursor.room) }

/-- The start of a turn of the loop. -/
def PrintState.read (s : PrintState) (index : ℕ) : PrintState :=
  { s with added := s.added + 1, log := s.log ++ [.read index] }

/-- The result of a call, and the state with what it stored. -/
def PrintState.call (env : PrintEnv) (call : PrintCall) (s : PrintState) : ℤ × PrintState :=
  ((env.apply call s.cursor.room).1,
    { s with
      cursor := { s.cursor with mem := s.cursor.put (env.apply call s.cursor.room).2 }
      log    := s.log ++ [.call call.site call.index s.cursor.room
        (env.apply call s.cursor.room).1 (env.apply call s.cursor.room).2] })

def PrintState.fail (s : PrintState) : PrintState := { s with result := -1 }

/-- The variables of a nested call of `log_n_properties`. -/
def PrintState.nested (s : PrintState) : PrintState := ⟨s.cursor, 0, 0, 0, s.log⟩

/-- The variables behind a nested call. -/
def PrintState.returned (s inner : PrintState) : PrintState :=
  { s with cursor := { s.cursor with mem := inner.cursor.mem }, log := inner.log }

/-- The loop of `log_n_properties`, with the rest of the array from `&property_value_pairs[i]` on,
whose first pair has the given index in the whole array. `none` where the loop reads behind the
pairs that were filled in, or where the pointer into the buffer leaves it. -/
def logNPropertiesLoop (env : PrintEnv) (count depth : ℕ) (pairs : List PropertyView)
    (index : ℕ) (s : PrintState) : Option PrintState :=
  if (depth = 0 ∧ s.i < count) ∨ (depth > 0 ∧ s.added < count) then
    match pairs with
    | []        => none
    | p :: rest =>
      if p.type.getType = .struct then
        let opened := PrintState.call env (p.openCall index) (s.read index)
        if opened.1 < 0 then some opened.2.fail
        else
          (opened.2.update opened.1).bind fun s =>
          (logNPropertiesLoop env p.fieldCount (depth + 1) rest (index + 1) s.nested).bind
            fun inner =>
          if inner.result < 0 then some (s.returned inner).fail
          else
            ((s.returned inner).update inner.result).bind fun s =>
            let closed := PrintState.call env (p.closeCall index) s
            if closed.1 < 0 then some { closed.2.fail with i := s.i + inner.i }
            else
              (closed.2.update closed.1).bind fun s =>
              logNPropertiesLoop env count depth (rest.drop inner.i) (index + 1 + inner.i)
                { s with i := s.i + inner.i + 1 }
      else
        let named := PrintState.call env (p.nameCall index) (s.read index)
        -- the loop goes on after this error, and a later result can hide it
        if named.1 < 0 then
          logNPropertiesLoop env count depth rest (index + 1) { named.2.fail with i := s.i + 1 }
        else
          (named.2.update named.1).bind fun s =>
          let printed := PrintState.call env (p.valueCall index) s
          if printed.1 < 0 then some printed.2.fail
          else
            (printed.2.update printed.1).bind fun s =>
            logNPropertiesLoop env count depth rest (index + 1) { s with i := s.i + 1 }
  else some s
termination_by pairs.length
decreasing_by
  all_goals
    simp only [List.length_cons, List.length_drop]
    omega

/-- `log_n_properties`. -/
def logNProperties (env : PrintEnv) (buffer : Cursor) (pairs : List PropertyView)
    (count depth : ℕ) : Option PrintState :=
  logNPropertiesLoop env count depth pairs 0 ⟨buffer, 0, 0, 0, []⟩

/-- `log_context_property_to_string`, called with a buffer and an array that are not `NULL`: the
result, and the buffer. -/
def logContextPropertyToString (env : PrintEnv) (buffer : Cursor) (pairs : List PropertyView)
    (count : ℕ) : Option (ℤ × List UInt8) :=
  if buffer.room = 0 ∨ count = 0 then some (-1, buffer.mem)
  else (logNProperties env buffer pairs count 0).map fun s => (s.result, s.cursor.mem)

/-- The pairs of a context up to the first that was never filled in. -/
def LogContext.views (c : LogContext) : List PropertyView :=
  (c.propertyValuePairs.takeWhile Option.isSome).filterMap
    (Option.map fun p => ⟨p.name, p.type, c.deref p.value⟩)

end CLogging
