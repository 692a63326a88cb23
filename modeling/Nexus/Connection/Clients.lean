import Mathlib.Data.List.Basic

/-!
# The clients of a remote

`MultiClientState` and the generator `MultiClient::try_clients` of `server/src/connection.rs`. All requests share an
index that is only ever moved on. A generator moves it on if nobody else did, and comes back at the end to the endpoints
that were skipped as unreachable.
-/

namespace Nexus.Connection

structure MultiClientState where
  current : UInt64
  /-- The host names of the endpoints. -/
  entries : List String
  nonempty : 0 < entries.length

namespace MultiClientState

def positionAt (st : MultiClientState) (i : UInt64) : Fin st.entries.length :=
  ⟨i.toNat % st.entries.length, Nat.mod_lt _ st.nonempty⟩

def hostnameAt (st : MultiClientState) (i : UInt64) : String := st.entries.get (st.positionAt i)

def next (st : MultiClientState) : MultiClientState := { st with current := st.current + 1 }

def skipRounds (reachable : String → Bool) : Nat → MultiClientState → MultiClientState
  | 0, st => st
  | n + 1, st => if reachable (st.hostnameAt st.current) then st else skipRounds reachable n st.next

def skipUnreachable (reachable : String → Bool) (st : MultiClientState) : MultiClientState :=
  skipRounds reachable st.entries.length st

def triedAllSince (st : MultiClientState) (start : UInt64) : Bool :=
  decide (st.entries.length ≤ (st.current - start).toNat)

end MultiClientState

structure TryClient where
  position : Nat
  hostname : String
  reachable : Bool
  deriving DecidableEq

structure TryClients where
  startCurrent : Option (UInt64 × UInt64)
  unreachableClients : List UInt64
  tryUnreachable : Option (List UInt64)
  /-- The generator is fused: after its end it gives nothing any more. -/
  ended : Bool

namespace TryClients

def start : TryClients := ⟨none, [], none, false⟩

def client (st : MultiClientState) (i : UInt64) (reachable : Bool) : TryClient :=
  ⟨st.positionAt i, st.hostnameAt i, reachable⟩

def currentClient (reachable : String → Bool) (st : MultiClientState) : TryClient :=
  client st st.current (reachable (st.hostnameAt st.current))

def nextUnreachable (g : TryClients) (st : MultiClientState) : List UInt64 → Option TryClient × TryClients
  | [] => (none, { g with tryUnreachable := some [], ended := true })
  | i :: is => (some (client st i false), { g with tryUnreachable := some is })

def between (i j : UInt64) : List UInt64 := (List.range (j - i).toNat).map fun k => i + UInt64.ofNat k

def next (g : TryClients) (st : MultiClientState) (reachable : String → Bool) :
    Option TryClient × TryClients × MultiClientState :=
  if g.ended then (none, g, st)
  else match g.tryUnreachable with
  | some is =>
    let (c, g) := g.nextUnreachable st is
    (c, g, st)
  | none => match g.startCurrent with
    | none => (some (currentClient reachable st), { g with startCurrent := some (st.current, st.current) }, st)
    | some (start, current) =>
      let st := if st.current = current then (st.next).skipUnreachable reachable else st
      if st.triedAllSince start then
        let (c, g) := { g with unreachableClients := [] }.nextUnreachable st g.unreachableClients
        (c, g, st)
      else
        (some (currentClient reachable st), { g with
            startCurrent := some (start, st.current)
            unreachableClients := g.unreachableClients ++ between (current + 1) st.current }, st)

end TryClients

end Nexus.Connection
