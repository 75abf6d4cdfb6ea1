import CLogging.Lib.Memory
import CLogging.Lib.Tiling
import CLogging.Lib.TraceLogging
import CLogging.Lib.Forest
import CLogging.Lib.Brackets
import CLogging.Lib.CString
import CLogging.Lib.Printf
import CLogging.Lib.ReadBack
import CLogging.Lib.Terminator
import CLogging.Lib.Machine
import CLogging.Lib.Pairing
import CLogging.Lib.Bits
import CLogging.Lib.Separated
import CLogging.Lib.Threads
import CLogging.Lib.Deadlock
import CLogging.Lib.Refinement
import CLogging.Lib.Objects
import CLogging.PropertyType
import CLogging.Context.Basic
import CLogging.Context.Setup
import CLogging.Context.Constructors
import CLogging.Context.Failure
import CLogging.Context.Reservation
import CLogging.Context.Layout
import CLogging.Context.Chain
import CLogging.Context.Tree
import CLogging.ToString.Algorithm
import CLogging.ToString.Turns
import CLogging.ToString.Properties
import CLogging.ToString.Types
import CLogging.ToString.Terminated
import CLogging.ToString.Trees
import CLogging.ToString.Levels
import CLogging.ToString.LevelTurns
import CLogging.ToString.Reported
import CLogging.ToString.Rendering
import CLogging.ToString.Errors
import CLogging.ToString.Closing
import CLogging.ToString.Words
import CLogging.ToString.CutOff
import CLogging.ToString.Values
import CLogging.Context.Objects
import CLogging.Context.Ownership
import CLogging.Context.Rejected
import CLogging.Context.CountBytes
import CLogging.Context.FieldCount
import CLogging.Sink.Line
import CLogging.Sink.Format
import CLogging.Sink.Delivery
import CLogging.Sink.Agreement
import CLogging.Sink.Text
import CLogging.Sink.Termination
import CLogging.Sink.ReadBack
import CLogging.Etw.Algorithm
import CLogging.Etw.Metadata
import CLogging.Etw.Event
import CLogging.Etw.Descriptors
import CLogging.Etw.Decode
import CLogging.Etw.Emission
import CLogging.Etw.Sink
import CLogging.Sink.Reading
import CLogging.Sink.SameContext
import CLogging.Logger.Basic
import CLogging.Logger.Lifecycle
import CLogging.Logger.Config
import CLogging.Stack.Fallback
import CLogging.Stack.Symbols
import CLogging.Stack.Thread
import CLogging.Stack.Terminated
import CLogging.Stack.Truthful
import CLogging.Stack.AddressMask
import CLogging.Stack.Conserved
import CLogging.Stack.Contents
import CLogging.Stack.Released
import CLogging.Stack.AsString
import CLogging.Stack.Frames
import CLogging.Stack.Concurrent
import CLogging.Stack.Serialized
import CLogging.Stack.Deadlock
import CLogging.Logger.Sinks
import CLogging.Logger.Library
import CLogging.Logger.Effects
import CLogging.Logger.Protocols
import CLogging.Logger.Registration
import CLogging.Logger.Callbacks
import CLogging.Stack.SearchPath
import CLogging.Stack.ModuleDirs
import CLogging.Hresult.FormatMessage
import CLogging.Hresult.FillProperty
import CLogging.Hresult.ValueFunctions
import CLogging.Logger.LogEx
import CLogging.Logger.LogErrors
