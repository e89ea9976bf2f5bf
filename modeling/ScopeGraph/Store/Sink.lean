import ScopeGraph.Error

/-!
# Sinks

A sink keeps the bytes that are written to it.  It may hold a limited number of bytes, and it may
refuse to flush.
-/
set_option autoImplicit false

namespace ScopeGraph

structure Sink where
  held : List UInt8
  limit? : Option Nat
  refusesFlush : Bool
  deriving DecidableEq, Repr

namespace Sink

def unlimited : Sink := ⟨[], none, false⟩

/-- Takes bytes up to the limit and fails if some are left. -/
def write (bytes : List UInt8) (sink : Sink) : Except Refusal Unit × Sink :=
  match sink.limit? with
  | none => (.ok (), { sink with held := sink.held ++ bytes })
  | some limit =>
    let room := limit - sink.held.length
    (if bytes.length ≤ room then .ok () else .error .sinkFull,
      { sink with held := sink.held ++ bytes.take room })

def flush (sink : Sink) : Except Refusal Unit :=
  if sink.refusesFlush then .error .flushRefused else .ok ()

end Sink

def utf8Bytes (text : String) : List UInt8 := text.toUTF8.toList

end ScopeGraph
