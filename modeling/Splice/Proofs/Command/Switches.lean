import Splice.Command
import Splice.Proofs.Outcome.Results

namespace Splice.Arguments

open Results

variable {f : Form} {name : String}

/-! ### A switch that stands first -/

def Given.withSwitch (name : String) (g : Given) : Given :=
  { g with switches := g.switches ++ [name] }

def Progress.withSwitch (name : String) (p : Progress) : Progress :=
  { p with given := p.given.withSwitch name }

@[simp] theorem Progress.withSwitch_given (p : Progress) :
    (p.withSwitch name).given = p.given.withSwitch name := rfl

@[simp] theorem Progress.withSwitch_waiting (p : Progress) :
    (p.withSwitch name).waiting = p.waiting := rfl

@[simp] theorem Given.withSwitch_command (g : Given) :
    (g.withSwitch name).command = g.command := rfl

theorem Given.use_withSwitch (g : Given) (u : Use) :
    (g.withSwitch name).use u = (g.use u).map (Given.withSwitch name) := by
  cases u with
  | given flag v => rfl
  | on flag =>
      unfold Given.use
      dsimp only
      split <;> rfl

namespace Progress

variable (p : Progress)

theorem apply_withSwitch (us : List Use) :
    (p.withSwitch name).apply us = (p.apply us).map (Progress.withSwitch name) := by
  have hused : us.foldlM Given.use (p.given.withSwitch name) =
      (us.foldlM Given.use p.given).map (Given.withSwitch name) :=
    foldlM_map Given.use_withSwitch p.given us
  show (us.foldlM Given.use (p.given.withSwitch name) >>= _) = _
  rw [hused, apply]
  cases us.foldlM Given.use p.given <;> rfl

theorem flag_withSwitch (text : String) (r : Reading) :
    (p.withSwitch name).flag f text r = (p.flag f text r).map (Progress.withSwitch name) := by
  unfold flag
  cases r.flag with
  | none => rfl
  | some flag =>
      dsimp only
      cases uses f flag r with
      | error h => rfl
      | ok u =>
          obtain ⟨us, extra, waiting⟩ := u
          cases waiting with
          | some last => rfl
          | none =>
              show ((p.withSwitch name).apply us >>= _) = ((p.apply us >>= _).map _)
              rw [apply_withSwitch]
              cases p.apply us with
              | error h => rfl
              | ok q => cases extra <;> rfl

theorem operand_withSwitch (text : String) :
    (p.withSwitch name).operand f text = (p.operand f text).withSwitch name := by
  unfold operand
  rw [apply_ite (Progress.withSwitch name), apply_ite (Progress.withSwitch name)]
  rfl

theorem dashes_withSwitch (text : String) :
    (p.withSwitch name).dashes f text = (p.dashes f text).withSwitch name := by
  unfold dashes
  rw [apply_ite (Progress.withSwitch name), apply_ite (Progress.withSwitch name)]
  rfl

theorem step_withSwitch (i : Item) :
    (p.withSwitch name).step f i = (p.step f i).map (Progress.withSwitch name) := by
  simp only [step, withSwitch_given, Given.withSwitch_command, withSwitch_waiting,
    apply_withSwitch, flag_withSwitch, operand_withSwitch, dashes_withSwitch]
  split
  · rfl
  · split <;> rfl

theorem finish_withSwitch :
    (p.withSwitch name).finish = p.finish.map (Given.withSwitch name) := by
  simp only [finish, withSwitch_waiting]
  split
  · rfl
  · show _ = Except.ok (Given.withSwitch name _)
    rw [apply_ite (Given.withSwitch name)]
    rfl

end Progress

def complete (f : Form) (g : Given) : Except Halt Given :=
  match f.operands.drop g.operands.length with
  | [] => return g
  | missing => throw (.misuse ("the following arguments are required: " ++
      ", ".intercalate (missing.map (·.name))))

theorem complete_withSwitch (g : Given) :
    complete f (g.withSwitch name) = (complete f g).map (Given.withSwitch name) := by
  unfold complete
  show (match f.operands.drop g.operands.length with | [] => _ | missing => _) = _
  cases f.operands.drop g.operands.length <;> rfl

/-- What the items of an argument list give. -/
def gather (f : Form) (is : List Item) : Except Halt Given := do
  complete f (← (← is.foldlM (Progress.step f) .start).finish)

theorem given_eq (arguments : List String) :
    given f arguments = items f arguments >>= gather f := rfl

theorem items_flag {flag : Flag} (hflag : f.flag? name = some flag)
    (hdash : name.toList.head? = some '-') (hname : name ≠ "--") (rest : List String) :
    items f (name :: rest) =
      (items f rest).map (⟨name, .flag ⟨some flag, name, .nothing⟩⟩ :: ·) := by
  have hreading : reading f name = .ok (some ⟨some flag, name, .nothing⟩) := by
    simp only [reading, hdash, ne_eq, not_true_eq_false, if_false, hflag]
  rw [items, if_neg hname, hreading]
  cases items f rest <;> rfl

theorem step_switch {flag : Flag} (hkey : flag.key = name) (heffect : flag.effect = .switch) :
    Progress.start.step f ⟨name, .flag ⟨some flag, name, .nothing⟩⟩ =
      .ok (Progress.start.withSwitch name) := by
  have huses : uses f flag ⟨some flag, name, .nothing⟩ = .ok ⟨[.on flag], none, none⟩ := by
    simp only [uses, single, Flag.takesValue, heffect]
    rfl
  have huse : Given.none.use (.on flag) = .ok (Given.none.withSwitch name) := by
    simp only [Given.use, heffect, hkey]
    rfl
  have happly : Progress.start.apply [.on flag] = .ok (Progress.start.withSwitch name) := by
    show ([Use.on flag].foldlM Given.use Given.none >>= _) = _
    rw [List.foldlM_cons, huse]
    rfl
  show Progress.start.flag f name ⟨some flag, name, .nothing⟩ = _
  simp only [Progress.flag, huses, bind, Except.bind, happly]
  rfl

theorem given_switch {flag : Flag} (hflag : f.flag? name = some flag) (hkey : flag.key = name)
    (heffect : flag.effect = .switch) (hdash : name.toList.head? = some '-') (hname : name ≠ "--")
    (rest : List String) :
    given f (name :: rest) = (given f rest).map (Given.withSwitch name) := by
  rw [given_eq, given_eq, items_flag hflag hdash hname]
  cases items f rest with
  | error h => rfl
  | ok is =>
      show gather f (_ :: is) = (gather f is).map _
      unfold gather
      rw [List.foldlM_cons, step_switch hkey heffect]
      show (is.foldlM (Progress.step f) (Progress.start.withSwitch name) >>= _) = _
      rw [foldlM_map Progress.step_withSwitch]
      cases is.foldlM (Progress.step f) Progress.start with
      | error h => rfl
      | ok p =>
          show ((p.withSwitch name).finish >>= _) = (p.finish >>= _).map _
          rw [Progress.finish_withSwitch]
          cases p.finish with
          | error h => rfl
          | ok g =>
              show complete f (g.withSwitch name) = (complete f g).map _
              exact complete_withSwitch g

/-! ### Commands -/

theorem items_text {arguments : List String} {is : List Item} (h : items f arguments = .ok is) :
    is.map Item.text = arguments := by
  induction arguments generalizing is with
  | nil => cases h; rfl
  | cons a rest ih =>
      rw [items] at h
      split at h
      · cases h
        simp [Function.comp_def]
      · obtain ⟨r, -, h⟩ := bind_ok_iff.mp h
        obtain ⟨js, hjs, h⟩ := bind_ok_iff.mp h
        cases h
        rw [List.map_cons, ih hjs]

theorem foldlM_step_command {p : Progress} (h : p.given.command ≠ []) (is : List Item) :
    is.foldlM (Progress.step f) p = .ok { p with
      given := { p.given with command := p.given.command ++ is.map Item.text } } := by
  induction is generalizing p with
  | nil => simp [pure, Except.pure]
  | cons i is ih =>
      rw [List.foldlM_cons, Progress.step, if_pos h]
      show is.foldlM (Progress.step f) { p with
        given := { p.given with command := p.given.command ++ [i.text] } } = _
      rw [ih (by simp)]
      simp

theorem items_operand (hdash : name.toList.head? ≠ some '-') (rest : List String) :
    items f (name :: rest) = (items f rest).map (⟨name, .operand⟩ :: ·) := by
  have hreading : reading f name = .ok none := by
    simp only [reading, ne_eq, hdash, not_false_eq_true, if_true]
  have hname : name ≠ "--" := by
    rintro rfl
    exact hdash rfl
  rw [items, if_neg hname, hreading]
  cases items f rest <;> rfl

theorem given_command (hcommands : f.commands ≠ []) (hoperands : f.operands = [])
    (hdash : name.toList.head? ≠ some '-') (rest : List String) :
    given f (name :: rest) =
      (items f rest).map fun _ => { Given.none with command := name :: rest } := by
  rw [given_eq, items_operand hdash]
  cases his : items f rest with
  | error h => rfl
  | ok is =>
      have hstep : Progress.start.step f ⟨name, .operand⟩ = .ok { Progress.start with
          given := { Given.none with command := [name] } } := by
        show Except.ok (Progress.start.operand f name) = _
        rw [Progress.operand, if_pos hcommands]
        rfl
      have hrest := foldlM_step_command (f := f) (p := { Progress.start with
        given := { Given.none with command := [name] } }) (by simp) is
      show gather f (_ :: is) = .ok _
      rw [gather, List.foldlM_cons, hstep]
      show (is.foldlM (Progress.step f) _ >>= _) = _
      rw [hrest, items_text his]
      show complete f _ = _
      unfold complete
      rw [hoperands]
      rfl

end Splice.Arguments

namespace Splice.Command

open Arguments Results

def jsonFlag : Flag := ⟨["--json"], .switch, "Output as JSON"⟩

def expansionOf (g : Given) : Command :=
  .expand ((g.operands[0]?.join).getD "") (g.has "--origins")

theorem read_expand (rest : List String) :
    read ("expand" :: rest) = (items form rest).mapError (form, ·) >>= fun _ =>
      (given expandForm rest).mapError (expandForm, ·) >>= fun g =>
        understood g.extras >>= fun _ => .ok ⟨options g, expansionOf g⟩ := by
  have hdash : "expand".toList.head? ≠ some '-' := by decide
  have hgiven : given form ("expand" :: rest) = _ := given_command (by decide) rfl hdash rest
  rw [read, hgiven]
  cases items form rest <;> rfl

theorem has_withSwitch {name other : String} (h : name ≠ other) (g : Given) :
    (g.withSwitch other).has name = g.has name := by
  simp [Given.has, Given.withSwitch, h]

theorem options_json (g : Given) :
    options (g.withSwitch "--json") = { options g with json := true } := by
  have hjson : (g.withSwitch "--json").has "--json" = true := by simp [Given.has, Given.withSwitch]
  show (⟨_, _, _, _⟩ : Options) = ⟨_, _, _, _⟩
  rw [hjson]
  rfl

/-- An argument list still reads with one more switch, which changes the way to report and nothing
else. -/
theorem read_json {rest : List String} {i : Invocation} (h : read ("expand" :: rest) = .ok i) :
    (∃ file origins, i.command = .expand file origins) ∧
      read ("expand" :: "--json" :: rest) =
        .ok { i with options := { i.options with json := true } } := by
  rw [read_expand] at h
  obtain ⟨is, his, h⟩ := bind_ok_iff.mp h
  obtain ⟨g, hg, h⟩ := bind_ok_iff.mp h
  obtain ⟨_, hextras, h⟩ := bind_ok_iff.mp h
  cases h
  refine ⟨⟨_, _, rfl⟩, ?_⟩
  have hunknown : items form ("--json" :: rest) =
      .ok (⟨"--json", .flag ⟨none, "--json", .nothing⟩⟩ :: is) := by
    have hreading : reading form "--json" = .ok (some ⟨none, "--json", .nothing⟩) := rfl
    rw [items, if_neg (by decide), hreading, mapError_ok_iff.mp his]
    rfl
  have hjson : given expandForm ("--json" :: rest) = .ok (g.withSwitch "--json") := by
    have hflag : expandForm.flag? "--json" = some jsonFlag := by decide
    rw [given_switch hflag rfl rfl rfl (by decide), mapError_ok_iff.mp hg]
    rfl
  have horigins : expansionOf (g.withSwitch "--json") = expansionOf g := by
    rw [expansionOf, has_withSwitch (by decide)]
    rfl
  rw [read_expand, hunknown, hjson]
  show understood g.extras >>= _ = _
  rw [hextras]
  show Except.ok (⟨options (g.withSwitch "--json"), expansionOf (g.withSwitch "--json")⟩ :
    Invocation) = _
  rw [options_json, horigins]

end Splice.Command
