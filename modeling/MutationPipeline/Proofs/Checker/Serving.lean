import MutationPipeline.Checker.Host
import MutationPipeline.Checker.Service
import MutationPipeline.Proofs.Documents

/-! A worker that is served by a process does what it does when it is called itself, and its answers
come back as they were given, save that most failures come back as their texts. -/
namespace MutationPipeline

def WorkerError.carried : WorkerError → WorkerError
  | .init checker reason => .init checker reason
  | e => .rejected e.message

theorem Reply.resultOfError (e : WorkerError) : (ofError e).result = .error e.carried := by
  cases e <;> rfl

namespace Request

theorem printOpens (r : Request) : ∃ tail, (codec.print r).toList = '\x7b' :: tail := by
  rw [Json.Codec.print, Json.compact, String.toList_ofList]
  cases r <;> exact ⟨_, rfl⟩

theorem printShows (r : Request) : Text.isBlankText (codec.print r) = false := by
  obtain ⟨tail, shape⟩ := r.printOpens
  have shown : Text.isBlank '\x7b' = false := by decide
  rw [Text.isBlankText, shape, List.all_cons, shown, Bool.false_and]

end Request

namespace Service

variable {m : Type → Type} [Monad m] [LawfulMonad m] (w : CheckWorker m) (pid : Nat)

theorem linesOf {s : String} (solid : Text.Solid s) :
    Text.lines (lineBytes s) = [Text.Line.ofText s] :=
  Text.linesEnded solid.noLineFeed

theorem nextLineOf {s : String} (solid : Text.Solid s) :
    Text.nextLine (lineBytes s) = some (Text.Line.ofText s, []) :=
  Text.nextLineEnded solid.noLineFeed

theorem answerLift (r : Request) (s : Service) :
    (Server.answer (w.lift : CheckWorker (StateT Service m)) r).run s =
      (fun reply => (reply, s)) <$> Server.answer w r := by
  cases r <;> simp [Server.answer, CheckWorker.lift]

theorem sendRequest (r : Request) :
    (send w (Request.codec.print r)).run {} =
      (fun reply => (true, { output := lineBytes (Reply.codec.print reply) })) <$>
        Server.answer w r := by
  have solid := Request.codecLawful.printSolid r
  simp [send, takeIn, linesOf solid, Server.handle, solid.text, r.printShows, Server.reply,
    Request.codecLawful.parsePrint r, writeReply, answerLift]

theorem receiveReply (reply : Reply) :
    (receive : StateT Service m (Option Text.Line)).run
        { output := lineBytes (Reply.codec.print reply) } =
      pure (some (Text.Line.ofText (Reply.codec.print reply)), {}) := by
  have next := nextLineOf (Reply.codecLawful.printSolid reply)
  simp [receive, next]

theorem exchangeRequest (r : Request) :
    (Launch.exchange (child pid w) (Request.codec.print r)).run {} =
      (fun reply => (some (Reply.codec.print reply), {})) <$> Server.answer w r := by
  have text (reply : Reply) := (Reply.codecLawful.printSolid reply).text
  simp [Launch.exchange, child, sendRequest, receiveReply, text]

def launch (program : String) : Launch (StateT Service m) :=
  ⟨program, pure (.ok (child pid w))⟩

/-- The worker's process, or none yet. -/
def Attached (connection : Option (Child (StateT Service m))) : Prop :=
  connection = none ∨ connection = some (child pid w)

theorem requestAnswered {program : String} {connection : Option (Child (StateT Service m))}
    (attached : Attached w pid connection) (r : Request) :
    (((launch w pid program).request r).run connection).run {} =
      (fun reply => ((reply.result, some (child pid w)), {})) <$> Server.answer w r := by
  have connected : (((launch w pid program).connect).run connection).run {} =
      pure ((.ok (child pid w), some (child pid w)), {}) := by
    rcases attached with rfl | rfl <;> simp [Launch.connect, launch, StateT.run] <;> rfl
  have understood (reply : Reply) :
      Launch.understand (Reply.codec.print reply) = reply.result := by
    simp [Launch.understand, Reply.codecLawful.parsePrint]
  simp [Launch.request, connected, exchangeRequest, understood]

theorem askAnswered {program : String} {connection : Option (Child (StateT Service m))}
    (attached : Attached w pid connection) {r : Request} {answer? : Reply → Option α}
    {reply : α → Reply} {call : m (Except WorkerError α)}
    (served : Server.answer w r = Server.replyTo reply <$> call)
    (good : ∀ x, (reply x).result = .ok (reply x)) (own : ∀ x, answer? (reply x) = some x) :
    (((launch w pid program).ask r answer?).run connection).run {} =
      (fun x => ((x.mapError WorkerError.carried, some (child pid w)), {})) <$> call := by
  simp only [Launch.ask, StateT.run_bind, requestAnswered w pid attached, served, Functor.map_map,
    bind_map_left]
  rw [map_eq_pure_bind]
  congr 1
  funext x
  cases x with
  | error e => simp [Server.replyTo, Reply.resultOfError, Except.mapError]
  | ok x => simp [Server.replyTo, good, own, Except.mapError]

theorem performAnswered {program : String} {connection : Option (Child (StateT Service m))}
    (attached : Attached w pid connection) {call : Call CheckWork} (lasting : call ≠ .dispose) :
    (((launch w pid program).worker.perform call).run connection).run {} =
      (fun r => ((r.mapError WorkerError.carried, some (child pid w)), {})) <$>
        w.perform call := by
  have mapped {α : Type} (f : α → CheckAnswer) (x : Except WorkerError α) :
      (x.mapError WorkerError.carried).map f = (x.map f).mapError WorkerError.carried := by
    cases x <;> rfl
  have through {α : Type} {r : Request} {answer? : Reply → Option α} {reply : α → Reply}
      {own : m (Except WorkerError α)} (f : α → CheckAnswer)
      (served : Server.answer w r = Server.replyTo reply <$> own)
      (good : ∀ x, (reply x).result = .ok (reply x)) (meant : ∀ x, answer? (reply x) = some x) :
      ((Except.map f <$> (launch w pid program).ask r answer?).run connection).run {} =
        (fun x => ((x.mapError WorkerError.carried, some (child pid w)), {})) <$>
          (Except.map f <$> own) := by
    simp only [StateT.run_map, askAnswered w pid attached served good meant, Functor.map_map,
      mapped]
  match call with
  | .dispose => exact absurd rfl lasting
  | .init => exact through _ rfl (fun _ => rfl) fun _ => rfl
  | .work (.setActive name) => exact through _ rfl (fun _ => rfl) fun _ => rfl
  | .work (.check mutants) => exact through _ rfl (fun _ => rfl) fun _ => rfl
  | .work (.createGroups mutants) => exact through _ rfl (fun _ => rfl) fun _ => rfl

theorem callsAnswered {program : String} {connection : Option (Child (StateT Service m))}
    (attached : Attached w pid connection) {calls : List (Call CheckWork)}
    (lasting : ∀ call ∈ calls, call ≠ .dispose) :
    ((calls.mapM (launch w pid program).worker.perform).run connection).run {} =
      (fun rs => ((rs.map (·.mapError WorkerError.carried),
        if calls = [] then connection else some (child pid w)), {})) <$>
        calls.mapM w.perform := by
  induction calls generalizing connection with
  | nil => simp
  | cons call calls ih =>
    have first : (((launch w pid program).worker.perform call).run connection).run {} = _ :=
      performAnswered w pid attached (lasting call List.mem_cons_self)
    have later := ih (.inr rfl) fun c member => lasting c (List.mem_cons_of_mem call member)
    simp [first, later]

theorem callsAnsweredBare :
    let host : CheckWorker (StateT (Host Id) Id) := Host.worker (.ofList []) []
    let calls : List (Call CheckWork) :=
      [.work (.check []), .init, .work (.setActive "line\nfeed"), .work (.createGroups [])]
    let run := ((calls.mapM (launch host 7 "checker").worker.perform).run none).run {}
    (run.run {}).map (fun r => r.1.1) (fun h => h.hosted.isSome) =
      ([.error (.rejected "no active checker set on this worker"), .ok .done,
        .error (.rejected "no checker registered under the name \"line\nfeed\""),
        .error (.rejected "no active checker set on this worker")], true) := by
  intro host calls run
  have answered : run = _ := callsAnswered host 7 (.inl rfl) (by simp [calls])
  rw [answered]
  rfl

end Service
end MutationPipeline

/-!
Serving a worker over a whole text. What the worker does is a state it carries along, and the user
sees the lines it is sent and that it is disposed, in the order in which this happens.
-/
namespace MutationPipeline.Server

def shown (lines : List Text.Line) : List String :=
  (lines.filterMap Text.Line.text?).filter fun line => !Text.isBlankText line

theorem shownCons {line : Text.Line} {text : String} (read : line.text? = some text)
    (rest : List Text.Line) :
    shown (line :: rest) = if Text.isBlankText text then shown rest else text :: shown rest := by
  rw [shown, List.filterMap_cons_some read, List.filter_cons]
  cases Text.isBlankText text <;> rfl

theorem serveShown {m : Type → Type} [Monad m] [LawfulMonad m] (w : CheckWorker m)
    (emit : Reply → m Unit) {lines : List Text.Line}
    (readable : ∀ line ∈ lines, ∃ text, line.text? = some text) :
    serve w (fun reply => (fun _ => true) <$> emit reply) lines =
      (forM (shown lines) fun line => reply w line >>= emit) >>= fun _ => close w := by
  induction lines with
  | nil => simp [serve, shown]
  | cons line rest ih =>
    obtain ⟨text, read⟩ := readable line List.mem_cons_self
    have later := ih fun l member => readable l (List.mem_cons_of_mem line member)
    rw [serve, handle, read, shownCons read]
    dsimp only
    cases blank : Text.isBlankText text <;> simp [later]

/-- What the user of a worker sees of it. -/
inductive Event where
  | wrote (bytes : List UInt8)
  | disposed
  deriving DecidableEq, Repr

section Watching

variable {σ : Type}

abbrev Watched (σ : Type) := StateT (List Event) (StateM σ)

def note (event : Event) : Watched σ Unit := modify (· ++ [event])

def writeLine (reply : Reply) : Watched σ Unit :=
  note (.wrote (Service.lineBytes (Reply.codec.print reply)))

def watched (w : CheckWorker (StateM σ)) : CheckWorker (Watched σ) :=
  { (w.lift : CheckWorker (Watched σ)) with dispose := do note .disposed; liftM w.dispose }

def serveText (w : CheckWorker (StateM σ)) (text : String) : Watched σ (ServiceEnd × List Note) :=
  serve (watched w) (fun reply => (fun _ => true) <$> writeLine reply)
    (Text.lines text.toUTF8.toList)

variable (w : CheckWorker (StateM σ))

/-- How a reply tells what came of a call: of a failed start the parts, of any other failure the
text. -/
inductive Told (good : α → Reply) : Except WorkerError α → Reply → Prop
  | good (x : α) : Told good (.ok x) (good x)
  | start (checker reason : String) :
      Told good (.error (.init checker reason)) (.initFailed checker reason)
  | failed {e : WorkerError} (other : ∀ checker reason, e ≠ .init checker reason) :
      Told good (.error e) (.failed e.message)

/-- The worker does what a request asks for. The reply tells what came of it. -/
inductive Fulfils (s : σ) : Request → Reply → σ → Prop
  | init {reply} (told : Told (fun _ => .done) (w.init.run s).1 reply) :
      Fulfils s .init reply (w.init.run s).2
  | setActive (name : String) {reply}
      (told : Told (fun _ => .done) ((w.setActive name).run s).1 reply) :
      Fulfils s (.setActive name) reply ((w.setActive name).run s).2
  | check (mutants : List Mutant) {reply}
      (told : Told .checked ((w.check mutants).run s).1 reply) :
      Fulfils s (.check mutants) reply ((w.check mutants).run s).2
  | createGroups (mutants : List Mutant) {reply}
      (told : Told .groups ((w.createGroups mutants).run s).1 reply) :
      Fulfils s (.createGroups mutants) reply ((w.createGroups mutants).run s).2

/-- Each line has one reply. A request is fulfilled by the worker as the requests before it left it,
anything else is answered without it. -/
inductive Dialogue : σ → List String → List Reply → σ → Prop
  | over (s : σ) : Dialogue s [] [] s
  | request {s t u : σ} {line : String} {rest : List String} {request : Request} {reply : Reply}
      {replies : List Reply} (parsed : Request.codec.parse line = .ok request)
      (fulfils : Fulfils w s request reply t) (later : Dialogue t rest replies u) :
      Dialogue s (line :: rest) (reply :: replies) u
  | malformed {s u : σ} {line : String} {rest : List String} {complaint : Complaint}
      {replies : List Reply} (parsed : Request.codec.parse line = .error complaint)
      (later : Dialogue s rest replies u) :
      Dialogue s (line :: rest)
        (.failed ("malformed checker request: " ++ complaint.text) :: replies) u

theorem toldReply (good : α → Reply) (outcome : Except WorkerError α) :
    Told good outcome (replyTo good outcome) := by
  cases outcome with
  | ok x => exact .good x
  | error e =>
    cases e with
    | init checker reason => exact .start checker reason
    | _ => exact .failed nofun

theorem answerFulfils (request : Request) (s : σ) :
    Fulfils w s request ((answer w request).run s).1 ((answer w request).run s).2 := by
  cases request with
  | init => exact .init (toldReply _ _)
  | setActive name => exact .setActive name (toldReply _ _)
  | check mutants => exact .check mutants (toldReply _ _)
  | createGroups mutants => exact .createGroups mutants (toldReply _ _)

theorem watchedReply (line : String) (seen : List Event) (s : σ) :
    ((reply (watched w) line).run seen).run s =
      ((((reply w line).run s).1, seen), ((reply w line).run s).2) := by
  have answered (request : Request) :
      answer (watched w) request = answer (w.lift : CheckWorker (Watched σ)) request := by
    cases request <;> rfl
  unfold reply
  split
  case h_1 request _ => 
    rw [answered]
    cases request <;> simp [answer, CheckWorker.lift] <;> rfl
  case h_2 => rfl

theorem Dialogue.ahead {s u : σ} {line : String} {rest : List String} {replies : List Reply}
    (later : Dialogue w ((reply w line).run s).2 rest replies u) :
    Dialogue w s (line :: rest) (((reply w line).run s).1 :: replies) u := by
  cases parsed : Request.codec.parse line with
  | ok request =>
    have same : reply w line = answer w request := by rw [reply, parsed]
    rw [same] at later ⊢
    exact .request parsed (answerFulfils w request s) later
  | error complaint =>
    have same : reply w line = pure (Server.malformed complaint) := by rw [reply, parsed]
    rw [same] at later ⊢
    exact .malformed parsed later

def wrote (reply : Reply) : Event := .wrote (Service.lineBytes (Reply.codec.print reply))

theorem repliesWritten (s : σ) (lines : List String) (seen : List Event) :
    ∃ replies last, Dialogue w s lines replies last ∧
      ((forM lines fun line => reply (watched w) line >>= writeLine).run seen).run s =
        (((), seen ++ replies.map wrote), last) := by
  induction lines generalizing seen s with
  | nil => exact ⟨[], s, .over s, by simp; rfl⟩
  | cons line rest ih =>
    have first := watchedReply w line seen s
    obtain ⟨replies, last, later, written⟩ :=
      ih ((reply w line).run s).2 (seen ++ [wrote ((reply w line).run s).1])
    refine ⟨_, last, later.ahead, ?_⟩
    rw [List.map_cons, List.append_cons, ← written]
    simp only [List.forM_cons, StateT.run_bind, first]
    rfl

def disposalNotes : Except WorkerError Unit → List Note
  | .ok _ => []
  | .error e => [disposalNote e]

theorem closeWatched (s : σ) (seen : List Event) :
    ((close (watched w)).run seen).run s =
      (((.ended, disposalNotes (w.dispose.run s).1), seen ++ [.disposed]),
        (w.dispose.run s).2) := by
  rcases ended : w.dispose.run s with ⟨answer, last⟩
  simp [close, watched, note, ended]
  cases answer <;> rfl

def written (events : List Event) : List UInt8 :=
  events.flatMap fun
    | .wrote bytes => bytes
    | .disposed => []

theorem writtenReplies (replies : List Reply) :
    written (replies.map wrote ++ [.disposed]) = Reply.codec.printLines replies := by
  simp [written, Json.Codec.printLines, List.flatMap_map, wrote]

/-- The worker is disposed once, in the state in which the last request left it and after the last
reply was written. -/
theorem textServed (s : σ) (text : String) :
    ∃ (replies : List Reply) (events : List Event) (last : σ),
      Dialogue w s (shown (Text.lines text.toUTF8.toList)) replies last ∧
      ((serveText w text).run []).run s =
        (((.ended, disposalNotes (w.dispose.run last).1), events), (w.dispose.run last).2) ∧
      events = replies.map wrote ++ [.disposed] ∧
      Text.lines (written events) = replies.map (fun r => .ofText (Reply.codec.print r)) := by
  have readable := Text.linesReadable text
  obtain ⟨replies, last, dialogue, all⟩ :=
    repliesWritten w s (shown (Text.lines text.toUTF8.toList)) []
  refine ⟨replies, _, last, dialogue, ?_, rfl, ?_⟩
  · rw [serveText, serveShown _ _ readable, StateT.run_bind, StateT.run_bind, all]
    exact closeWatched w _ _
  · rw [writtenReplies, Reply.codecLawful.linesApart]

end Watching
end MutationPipeline.Server

/-! When a served worker is disposed. Serving stops at the first line that cannot be read and at the
first reply that cannot be written, and the worker is disposed only where it stops at neither. -/
namespace MutationPipeline.Text

theorem readsWhole (bytes : List UInt8) (broken : Bool) :
    none ∉ reads bytes broken ↔ broken = false ∧ ∀ line ∈ lines bytes, line.text? ≠ none := by
  cases broken <;> simp [reads]

end MutationPipeline.Text

namespace MutationPipeline.Server

section Reading
variable {m : Type → Type} [Monad m] (w : CheckWorker m) (write : Reply → m Bool)

def heeded : List (Option String) → List String
  | some text :: rest => if Text.isBlankText text then heeded rest else text :: heeded rest
  | _ => []

def answerAll : List String → m Bool
  | [] => return true
  | line :: rest => do
    if ← write (← reply w line) then answerAll rest else return false

def counted : CheckWorker (StateT Nat m) :=
  { (w.lift : CheckWorker (StateT Nat m)) with
    dispose := do modify (· + 1); liftM w.dispose }

theorem heededWhole {lines : List Text.Line} (readable : ∀ line ∈ lines, line.text? ≠ none) :
    heeded (lines.map Text.Line.text?) = shown lines := by
  induction lines with
  | nil => rfl
  | cons line rest ih =>
    have later := ih fun l member => readable l (List.mem_cons_of_mem line member)
    obtain ⟨text, read⟩ := Option.ne_none_iff_exists'.mp (readable line List.mem_cons_self)
    rw [shownCons read, List.map_cons, read, heeded, later]

variable [LawfulMonad m]

theorem serveReadsWhole (lines : List Text.Line) :
    serveReads w write (lines.map Text.Line.text?) = serve w write lines := by
  induction lines with
  | nil => rfl
  | cons line rest ih =>
    rw [List.map_cons, serve, handle, ← ih]
    cases line.text? with
    | none => simp [serveReads]
    | some text =>
      rw [serveReads]
      dsimp only
      split
      · simp
      · simp only [bind_assoc]
        refine bind_congr fun reply => bind_congr fun taken => ?_
        cases taken <;> simp

theorem serveStreamWhole (bytes : List UInt8) :
    serveStream w write bytes false = serve w write (Text.lines bytes) :=
  serveReadsWhole w write (Text.lines bytes)

theorem countedReply (line : String) (n : Nat) :
    (reply (counted w) line).run n = (·, n) <$> reply w line := by
  unfold reply
  split
  case h_1 request _ => cases request <;> simp [answer, counted, CheckWorker.lift]
  case h_2 => simp

theorem countedClose (n : Nat) : (close (counted w)).run n = (·, n + 1) <$> close w := by
  simp only [close, counted, bind_assoc, StateT.run_bind, StateT.run_modify, StateT.run_monadLift,
    monadLift_self, bind_pure_comp, bind_map_left, pure_bind, map_bind]
  refine bind_congr fun answer => ?_
  cases answer <;> simp

theorem servedCounting (reads : List (Option String)) (n : Nat) :
    (serveReads (counted w) (fun r => liftM (write r)) reads).run n = do
      if ← answerAll w write (heeded reads) then
        if none ∈ reads then return ((.unreadable, []), n) else (·, n + 1) <$> close w
      else return ((.unwritable, []), n) := by
  induction reads with
  | nil => simp [serveReads, heeded, answerAll, countedClose]
  | cons read rest ih =>
    cases read with
    | none => simp [serveReads, heeded, answerAll]
    | some text =>
      rw [serveReads, heeded]
      split
      · simp [ih]
      · simp only [answerAll, StateT.run_bind, countedReply, bind_assoc, bind_map_left]
        refine bind_congr fun reply => ?_
        simp only [StateT.run_monadLift, monadLift_self, bind_pure_comp, bind_map_left,
          List.mem_cons, reduceCtorEq, false_or]
        refine bind_congr fun taken => ?_
        cases taken <;> simp [ih]

end Reading

section Running
variable {σ : Type} (w : CheckWorker (StateM σ)) (write : Reply → StateM σ Bool)

theorem closeEnds (s : σ) : ((close w).run s).1.1 = .ended := by
  rw [close, StateT.run_bind]
  rcases w.dispose.run s with ⟨_ | _, after⟩ <;> rfl

theorem servedRun (reads : List (Option String)) (s : σ) :
    (((serveReads (counted w) (fun r => liftM (write r)) reads).run 0).run s).1 =
      if ((answerAll w write (heeded reads)).run s).1 then
        if none ∈ reads then ((.unreadable, []), 0)
        else (((close w).run ((answerAll w write (heeded reads)).run s).2).1, 1)
      else ((.unwritable, []), 0) := by
  rw [servedCounting, StateT.run_bind]
  rcases (answerAll w write (heeded reads)).run s with ⟨_ | _, after⟩
  · rfl
  · by_cases failing : none ∈ reads <;> simp only [failing, if_true, if_false] <;> rfl

/-- The worker is disposed once where serving ends well, and not at all where it ends otherwise. It
ends well exactly if all lines can be read and all replies can be written. -/
theorem disposedAtEnd (bytes : List UInt8) (broken : Bool) (s : σ) :
    let served := (((serveStream (counted w) (fun r => liftM (write r)) bytes broken).run 0).run s).1
    served.2 = (if served.1.1 = .ended then 1 else 0) ∧
      (served.1.1 = .ended ↔ broken = false ∧ (∀ line ∈ Text.lines bytes, line.text? ≠ none) ∧
        ((answerAll w write (shown (Text.lines bytes))).run s).1 = true) := by
  intro served
  have told : served = _ := servedRun w write (Text.reads bytes broken) s
  by_cases failing : none ∈ Text.reads bytes broken
  · have early : served.1.1 ≠ .ended ∧ served.2 = 0 := by
      rw [told, if_pos failing]
      split <;> exact ⟨nofun, rfl⟩
    rw [if_neg early.1]
    exact ⟨early.2, iff_of_false early.1 fun ⟨whole, readable, _⟩ =>
      (Text.readsWhole bytes broken).mpr ⟨whole, readable⟩ failing⟩
  · obtain ⟨rfl, readable⟩ := (Text.readsWhole bytes broken).mp failing
    have same : heeded (Text.reads bytes false) = shown (Text.lines bytes) := heededWhole readable
    rw [same, if_neg failing] at told
    cases taken : ((answerAll w write (shown (Text.lines bytes))).run s).1 with
    | false =>
      rw [taken, if_neg Bool.false_ne_true] at told
      rw [told]
      exact ⟨rfl, iff_of_false nofun fun ⟨_, _, wrong⟩ => Bool.false_ne_true wrong⟩
    | true =>
      have done : served.1.1 = .ended ∧ served.2 = 1 := by
        rw [told, taken]
        exact ⟨closeEnds w _, rfl⟩
      rw [if_pos done.1]
      exact ⟨done.2, iff_of_true done.1 ⟨rfl, readable, rfl⟩⟩

end Running

/-- A line is no text, the stream breaks off, a reply cannot be written: in none of these cases is
the worker disposed. -/
theorem undisposed :
    let host : CheckWorker (StateM (Host Id)) := Host.worker (.ofList []) []
    let served (bytes : List UInt8) (broken taken : Bool) :=
      (((serveStream (counted host) (fun _ => pure taken) bytes broken).run 0).run {}).1
    served [0xff] false true = ((.unreadable, []), 0) ∧
      served [] true true = ((.unreadable, []), 0) ∧
      served [0x21] false false = ((.unwritable, []), 0) := by
  exact ⟨rfl, rfl, rfl⟩

end MutationPipeline.Server
