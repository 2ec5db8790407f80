import MutationPipeline.Pool.Work
import MutationPipeline.Rehearsal.Clock
import MutationPipeline.Worker.Recovery

/-!
A table at which calls to one pool are made by hand. Calls have names. A call that cannot finish at
once stays pending; after everything that is done, the pending calls go on, the oldest first and
again and again, until none of them can finish.
-/
namespace MutationPipeline.Rehearsal

inductive PoolCall where
  | acquiring (a : Acquisition Trial)
  | filling (f : Filling Trial)
  | disposing (d : Disposal Trial)
  | visiting (b : Broadcast (Handling Trial))

inductive PoolAnswer where
  | acquired (r : Except PoolError (Nat × Nat))
  | filled (r : Except PoolError Unit)
  | finished (r : Except WorkerError Unit)

abbrev ScriptedSite := Site Trial Unit

namespace PoolCall

def visit (seat : Nat) : Machine ScriptedSite (Handling Trial) (Except WorkerError Unit) :=
  (Handling.moves ⟨"", false⟩ seat .call).on Site.onCrew

def moves : Machine ScriptedSite PoolCall PoolAnswer
  | .acquiring a, s =>
    Acquisition.moves.within .acquiring (fun r s => (s, .done (.acquired r))) a s
  | .filling f, s => Filling.moves.within .filling (fun r s => (s, .done (.filled r))) f s
  | .disposing d, s => Disposal.moves.within .disposing (fun r s => (s, .done (.finished r))) d s
  | .visiting b, s =>
    (Broadcast.moves .starting visit).within .visiting (fun r s => (s, .done (.finished r))) b s

def tickets : PoolCall → List Nat
  | .acquiring a => a.tickets
  | .disposing d => d.tickets
  | _ => []

def tokens : PoolCall → List Nat
  | .acquiring a => a.tokens
  | .filling f => f.tokens
  | .disposing d => d.tokens
  | .visiting b => b.phases.flatMap Handling.tokens

end PoolCall

structure Table where
  scene : Scene (Cast (Script Unit)) ScriptedSite Unit
  held : List (String × Nat) := []
  pending : List (String × PoolCall) := []
  brokeDown : Bool := false

namespace Table

def ofScripts (capacity : Nat) (scripts : List (Script Unit)) : Table where
  scene := { state := { pool := .ofCapacity capacity }, players := Cast.ofList scripts }

def surroundings : Surroundings (Scene (Cast (Script Unit)) ScriptedSite Unit) :=
  Scene.surroundings Site.onCrew (Script.play fun _ => ())

def withPool (t : Table) (f : Pool → Pool) : Table :=
  { t with scene := { t.scene with state := t.scene.state.withPool f } }

def release (t : Table) (name : String) : Table × Bool :=
  match t.held.lookup name with
  | some ticket =>
    ({ t.withPool fun p => (p.putBack ticket).free ticket with
        held := t.held.filter fun h => h.1 ≠ name }, true)
  | none => (t, false)

/-- Lets a call go on. A worker that it acquires is held under the name of the call, in place of
the one held before. -/
def proceed (t : Table) (name : String) (call : PoolCall) : Table × Ending PoolCall PoolAnswer :=
  let (ending, scene) := surroundings.poll (PoolCall.moves.on Scene.onState) patience call t.scene
  let t := { t with scene }
  match ending with
  | .done (.acquired (.ok (ticket, _))) =>
    let t := (t.release name).1
    ({ t with held := t.held ++ [(name, ticket)] }, ending)
  | .panicked => ({ t with brokeDown := true }, ending)
  | _ => (t, ending)

def call (t : Table) (name : String) (c : PoolCall) : Table × Option PoolAnswer :=
  match t.proceed name c with
  | (t, .done answer) => (t, some answer)
  | (t, .waiting c) => ({ t with pending := t.pending ++ [(name, c)] }, none)
  | (t, .panicked) => (t, none)

def drop (c : PoolCall) (s : ScriptedSite) : ScriptedSite :=
  c.tokens.foldl (fun s token => { s with crew := s.crew.abandon token })
    (s.withPool fun p => c.tickets.foldl Pool.forget p)

def cancel (t : Table) (name : String) : Table × Bool :=
  let (dropped, kept) := t.pending.partition fun p => p.1 = name
  ({ t with
      scene := { t.scene with state := dropped.foldl (fun s p => drop p.2 s) t.scene.state }
      pending := kept }, !dropped.isEmpty)

def round : List (String × PoolCall) → Table → Table × List (String × PoolAnswer)
  | [], t => (t, [])
  | (name, c) :: rest, t =>
    match t.proceed name c with
    | (t, .done answer) =>
      let (t, answers) := round rest t
      (t, (name, answer) :: answers)
    | (t, .waiting c) => round rest { t with pending := t.pending ++ [(name, c)] }
    | (t, .panicked) => round rest t

def settle (t : Table) : Table × List (String × PoolAnswer) :=
  go (t.pending.length + 1) t
where
  go : Nat → Table → Table × List (String × PoolAnswer)
    | 0, t => (t, [])
    | n + 1, t =>
      match round t.pending { t with pending := [] } with
      | (t, []) => (t, [])
      | (t, answers) =>
        let (t, more) := go n t
        (t, answers ++ more)

end Table

end MutationPipeline.Rehearsal
