import CLogging.Stack.Fallback
import CLogging.Stack.Symbols

/-!
# The stack of a thread

On Windows `get_thread_stack` walks over the frames of a thread and prints a line for each. Other
threads are suspended meanwhile. On Linux it prints that it cannot.
-/

namespace CLogging

open C Printf

/-! ### Frames -/

/-- How the program counter of the caller is found. A function without an entry has not saved its
return address: on x64 it is read from the stack, if that succeeds, on ARM64 it is in `Lr`. -/
inductive Unwind where
  | leaf (readProcessMemory : Option UInt64) (lr : UInt64)
  | function (pc : UInt64)

/-- What the calls for a frame return: the name of the function, and the file and the line, where
they are known. -/
structure Frame where
  symFromAddr          : Option CString
  symGetLineFromAddr64 : Option (CString × UInt32)
  failure              : Option Failure
  unwind               : Unwind

/-- The program counter of the caller. -/
def Frame.nextPc (g : SymbolHandler) (f : Frame) : UInt64 :=
  match f.unwind with
  | .leaf readProcessMemory lr =>
    match g.addressMask with
    | none   => readProcessMemory.getD 0
    | some _ => stripPac g lr
  | .function pc => stripPac g pc

def Frame.functionName (f : Frame) : CString :=
  f.symFromAddr.getD ⟨ascii "failure in SymFromAddr", by decide⟩

def Frame.fileName (f : Frame) : CString :=
  match f.symGetLineFromAddr64 with
  | none           => ⟨ascii "failure in SymGetLineFromAddr64", by decide⟩
  | some (file, _) => file

def Frame.lineNumber (f : Frame) : UInt32 :=
  match f.symGetLineFromAddr64 with
  | none           => 0
  | some (_, line) => line

/-- `"!%s %s:%u"`. -/
def Frame.line (f : Frame) : CString :=
  .concat [⟨ascii "!", by decide⟩, f.functionName, ⟨ascii " ", by decide⟩, f.fileName,
    ⟨ascii ":", by decide⟩, .unsigned f.lineNumber.toNat]

/-- What stands before a line. -/
def separator (firstLine : Bool) : CString :=
  if firstLine then .empty else ⟨ascii "\n", by decide⟩

def Frame.call (f : Frame) (firstLine : Bool) : FallbackCall :=
  ⟨.concat [separator firstLine, f.line], f.failure⟩

/-- The variables of the walk, and the calls made so far. -/
structure WalkState where
  destination    : Cursor
  firstLine      : Bool
  skipFirstFrame : Bool
  events         : List StackEvent

/-- `SymFromAddr`, `SymGetLineFromAddr64` and the line they give. -/
def WalkState.print (g : SymbolHandler) (pc : UInt64) (f : Frame) (s : WalkState) : WalkState :=
  { s with
    destination := snprintfFallback (f.call s.firstLine) s.destination
    firstLine   := false
    events      := s.events ++
      [.symFromAddr g.processHandle pc, .symGetLineFromAddr64 g.processHandle pc] }

/-- The loop over the frames, given what the calls return in each turn. `none` if it is still
running after these. -/
def walk (g : SymbolHandler) : List Frame → UInt64 → WalkState → Option WalkState
  | [], pc, s      => if pc = 0 then some s else none
  | f :: fs, pc, s =>
    if pc = 0 then some s
    else
      walk g fs (f.nextPc g)
        (if s.skipFirstFrame then { s with skipFirstFrame := false } else s.print g pc f)

/-! ### `get_thread_stack` -/

/-- What the calls of `get_thread_stack` return. `stateText` is what the format of an enumeration
prints for the state of the module. -/
structure ThreadEnv where
  stateText        : CString
  currentThreadId  : UInt32
  openThread       : Option ℕ
  suspendThread    : Bool
  getThreadContext : Bool
  lastError        : UInt32
  failure          : Option Failure
  pc               : UInt64
  frames           : List Frame
  resumeThread     : Bool
  closeHandle      : Bool

def ThreadEnv.notInitializedCall (env : ThreadEnv) : FallbackCall :=
  ⟨.concat [⟨ascii "failure: get_thread_stack is not initialized, g.doSymInit=", by decide⟩,
    env.stateText], env.failure⟩

/-- `"%sfailure (GetLastError=%u) in "` and the name of the function that failed. -/
def ThreadEnv.failureCall (env : ThreadEnv) (function : CString) (firstLine : Bool) :
    FallbackCall :=
  ⟨.concat [separator firstLine, ⟨ascii "failure (GetLastError=", by decide⟩,
    .unsigned env.lastError.toNat, ⟨ascii ") in ", by decide⟩, function], env.failure⟩

def ThreadEnv.suspendThreadCall (env : ThreadEnv) : Bool → FallbackCall :=
  env.failureCall ⟨ascii "SuspendThread", by decide⟩

def ThreadEnv.getThreadContextCall (env : ThreadEnv) : Bool → FallbackCall :=
  env.failureCall ⟨ascii "GetThreadContext", by decide⟩

/-- `wasContextAcquired` and `wasThreadSuspended`, and the state behind step 3. -/
def captureContext (env : ThreadEnv) (threadId : UInt32) (s : WalkState) :
    Bool × Bool × WalkState :=
  if env.currentThreadId = threadId then
    (true, false, { s with events := s.events ++ [.rtlCaptureContext] })
  else if ¬ env.suspendThread then
    (false, false,
      { s with
        destination := snprintfFallback (env.suspendThreadCall s.firstLine) s.destination
        firstLine   := false
        events      := s.events ++ [.suspendThread false] })
  else if ¬ env.getThreadContext then
    (false, true,
      { s with
        destination := snprintfFallback (env.getThreadContextCall s.firstLine) s.destination
        firstLine   := false
        events      := s.events ++ [.suspendThread true, .getThreadContext false] })
  else
    (true, true, { s with events := s.events ++ [.suspendThread true, .getThreadContext true] })

/-- Step 4, under the lock. -/
def walkLocked (g : SymbolHandler) (env : ThreadEnv) (threadId : UInt32) (s : WalkState) :
    Option WalkState :=
  (walk g env.frames env.pc
    { s with
      skipFirstFrame := decide (env.currentThreadId = threadId)
      events         := s.events ++ [.acquireSRWLockExclusive] }).map fun s =>
    { s with events := s.events ++ [.releaseSRWLockExclusive] }

/-- What is in the destination in the end, and the calls made. -/
structure ThreadStack where
  destination : Option (List UInt8)
  events      : List StackEvent

/-- The final store. With no space left the index wraps around to the byte before the cursor. -/
def storeLast (c : Cursor) : List UInt8 := c.mem.set (c.pos + c.room - 1) 0

/-- The end of the function: resume and close the thread, and store the terminator. If the thread
cannot be resumed, the function returns there. -/
def finish (env : ThreadEnv) (wasThreadSuspended : Bool) (s : WalkState) : ThreadStack :=
  if wasThreadSuspended then
    if ¬ env.resumeThread then ⟨some s.destination.mem, s.events ++ [.resumeThread false]⟩
    else
      ⟨some (storeLast s.destination),
        s.events ++ [.resumeThread true, .closeHandle env.openThread env.closeHandle]⟩
  else
    ⟨some (storeLast s.destination),
      s.events ++ [.closeHandle env.openThread env.closeHandle]⟩

/-- `get_thread_stack` on Windows. The destination is a block of `destinationSize` bytes. `none` if
the walk over the frames does not end. -/
def getThreadStack (g : SymbolHandler) (env : ThreadEnv) (threadId : UInt32)
    (destination : Option (List UInt8)) : Option ThreadStack :=
  match destination with
  | none     => some ⟨none, []⟩
  | some mem =>
    if mem.length = 0 then some ⟨some mem, []⟩
    else if g.symbolsState ≠ .initialized then
      some ⟨some (snprintfFallback env.notInitializedCall ⟨mem, 0, mem.length⟩).mem, []⟩
    else
      let s : WalkState := ⟨⟨mem.set 0 0, 0, mem.length⟩, true, false, []⟩
      match env.openThread with
      | none   => some ⟨some (storeLast s.destination), [.openThread none]⟩
      | some h =>
        let (wasContextAcquired, wasThreadSuspended, s) :=
          captureContext env threadId { s with events := [.openThread (some h)] }
        (if ¬ wasContextAcquired then some s else walkLocked g env threadId s).map
          (finish env wasThreadSuspended)

/-! ### Linux -/

def notSupportedCall (failure : Option Failure) : FallbackCall :=
  ⟨⟨ascii "currently running platform not supported.", by decide⟩, failure⟩

/-- `get_thread_stack` on Linux, given how `vsnprintf` fails, if it does. -/
def getThreadStackLinux (failure : Option Failure) (destination : Option (List UInt8)) :
    Option (List UInt8) :=
  destination.map fun mem =>
    if mem.length = 0 then mem
    else (snprintfFallback (notSupportedCall failure) ⟨mem, 0, mem.length⟩).mem

end CLogging
