import Splice.Command
import Splice.Proofs.Outcome.Live

namespace Splice.Command

open Outcome

variable {α : Type} {w : World} {o : Options} {c : Command}

/-- What a run has come to after some of its steps. -/
structure Stage (α : Type) where
  requests : List Request
  sink : Log.Sink
  result : Except Fault α

/-- What a command finds once settings are loaded and logging is set up. -/
structure Prepared where
  session : Config.Session
  root : Path
  setup : Log.Setup
  /-- The files as the command makes its records. -/
  files : Files

/-- What comes before the work of a command, whichever it is and however it reports. -/
def prepare (w : World) (o : Options) : Stage Prepared :=
  let before := settings w o
  let sink := before.records.foldl Log.Setup.start.deliver (.ofFiles w.files w.clock)
  match before.result with
  | .error e => ⟨before.requests, sink, .error e⟩
  | .ok s => match Log.Setup.start.configure w.files s.logLevel s.logFile with
    | (_, .error e) =>
      ⟨before.requests, { sink with files := Log.Setup.left w.files s.logFile }, .error e⟩
    | (setup, .ok files) =>
      let sink := { sink with files := files }
      ⟨before.requests, sink, .ok ⟨{ s.session with world := { w with files := files } }, s.root,
        setup, setup.files sink⟩⟩

namespace Stage

/-- The work of a command comes after its preparation, if that succeeds. -/
def andThen (p : Stage Prepared) (work : Prepared → Live α) : Stage α :=
  match p.result with
  | .error e => ⟨p.requests, p.sink, .error e⟩
  | .ok s => ⟨p.requests ++ (work s []).requests,
      (work s []).records.foldl s.setup.deliver p.sink, (work s []).result⟩

def exit (r : Report) (print : α → Printed) (f : Stage α) : Exit :=
  conclude r f.requests f.sink (f.result.map print)

theorem result_andThen (p : Stage Prepared) (work : Prepared → Live α) :
    (p.andThen work).result = p.result >>= fun s => (work s []).result := by
  unfold andThen
  cases p.result <;> rfl

theorem andThen_congr {p : Stage Prepared} {work work' : Prepared → Live α}
    (h : ∀ s, p.result = .ok s → work s [] = work' s []) : p.andThen work = p.andThen work' := by
  unfold andThen
  cases hp : p.result with
  | error e => rfl
  | ok s =>
      dsimp only
      rw [h s hp]

/-- What is made of the work without any further step may as well be made on printing. -/
theorem exit_return {β : Type} (p : Stage Prepared) (work : Prepared → Live α) (g : α → β)
    (r : Report) (print : β → Printed) : (p.andThen fun s => do return g (← work s)).exit r print =
      (p.andThen work).exit r fun a => print (g a) := by
  unfold exit andThen
  cases p.result with
  | error e => rfl
  | ok s =>
      simp only [Live.bind_return]
      cases (work s []).result <;> rfl

variable {r : Report} {print : α → Printed} {f : Stage α} {a : α} {e : Fault}

theorem exit_ok (h : f.result = .ok a) : f.exit r print =
    ⟨.ok 0, none, ⟨"", f.sink.errors⟩ ++ print a, f.requests, f.sink.files⟩ := by
  rw [exit, h]
  rfl

theorem exit_reported (h : f.result = .error e) (hown : e.kind.isOwn = true) : f.exit r print =
    ⟨.ok 1, some e, ⟨"", f.sink.errors⟩ ++ r.error e.kind.name e "", f.requests,
      f.sink.files⟩ := by
  rw [exit, h]
  exact if_pos hown

theorem exit_escaped (h : f.result = .error e) (hown : e.kind.isOwn = false) : f.exit r print =
    ⟨.error e, none, ⟨"", f.sink.errors⟩, f.requests, f.sink.files⟩ := by
  rw [exit, h]
  exact if_neg (by simp [hown])

end Stage

def reportFor (o : Options) : Report := ⟨o.json, some 2⟩

theorem run_prepare (w : World) (o : Options) (c : Command) : run w ⟨o, c⟩ =
    ((prepare w o).andThen fun s => perform s.files s.session s.root (reportFor o) c).exit
      (reportFor o) id := by
  unfold run prepare
  dsimp only
  cases (settings w o).result with
  | error e => rfl
  | ok s =>
      dsimp only
      cases Log.Setup.start.configure w.files s.logLevel s.logFile with
      | mk setup result =>
          cases result with
          | error e => rfl
          | ok files =>
              rw [Stage.exit, Except.map_id]
              rfl

theorem run_eq {work : Prepared → Live α} {print : α → Printed}
    (h : ∀ s, perform s.files s.session s.root (reportFor o) c = do return print (← work s)) :
    run w ⟨o, c⟩ = ((prepare w o).andThen work).exit (reportFor o) print := by
  have hperform : (fun s : Prepared => perform s.files s.session s.root (reportFor o) c) =
      fun s => do return print (← work s) := funext h
  rw [run_prepare, hperform, Stage.exit_return]
  rfl

end Splice.Command
