import LiveProbe.Proofs.Frame.Telling

/-!
Calls in progress and the stack. Whatever code does, however deep its calls are and however they
end, a hook is handed one frame for each call in progress, the innermost first, which stands where
the last line was executed in it; outside of all calls, a line has a frame of its own while its
hooks run.
-/
namespace LiveProbe

namespace Tale

/-- Where a frame stands after all that has come to pass in it: lines move it, those that hooks
execute too, and calls have frames of their own. -/
def place (here : StackFrame) : Tale → StackFrame
  | .done => here
  | .handed _ rest => rest.place here
  | .called _ _ rest => rest.place here
  | .executed path line inside rest => rest.place (inside.place { here with file := path, line })

/-- Every stack that is handed out within a frame lists the frame, where it stands by then, and
those of its callers; the calls in it are called by it. -/
def Lists (callers : List StackFrame) (here : StackFrame) : Tale → Prop
  | .done => True
  | .handed stack rest => stack = here :: callers ∧ rest.Lists callers here
  | .called m inside rest =>
    inside.Lists (here :: callers) (Action.frameOf m) ∧ rest.Lists callers here
  | .executed path line inside rest =>
    let moved := { here with file := path, line }
    inside.Lists callers moved ∧ rest.Lists callers (inside.place moved)

/-- So it is outside of all calls, where no stack is handed out but by lines. -/
def Outermost : Tale → Prop
  | .done => True
  | .handed _ _ => False
  | .called m inside rest => inside.Lists [] (Action.frameOf m) ∧ rest.Outermost
  | .executed path line inside rest => inside.Lists [] ⟨path, "<main>", line⟩ ∧ rest.Outermost

variable {callers : List StackFrame} {here : StackFrame}

theorem append_done (t : Tale) : t.append .done = t := by
  induction t with
  | done => rfl
  | handed stack rest ih => exact congrArg (handed stack) ih
  | called m inside rest _ ih => exact congrArg (called m inside) ih
  | executed path line inside rest _ ih => exact congrArg (executed path line inside) ih

theorem place_append (here : StackFrame) (t later : Tale) :
    (t.append later).place here = later.place (t.place here) := by
  induction t generalizing here with
  | done => rfl
  | handed _ rest ih => exact ih here
  | called _ _ rest _ ih => exact ih here
  | executed path line inside rest _ ih => exact ih _

theorem Lists.append {t later : Tale} (lists : t.Lists callers here)
    (lists' : later.Lists callers (t.place here)) : (t.append later).Lists callers here := by
  induction t generalizing here with
  | done => exact lists'
  | handed stack rest ih => exact ⟨lists.1, ih lists.2 lists'⟩
  | called m inside rest _ ih => exact ⟨lists.1, ih lists.2 lists'⟩
  | executed path line inside rest _ ih => exact ⟨lists.1, ih lists.2 lists'⟩

theorem Outermost.append {t later : Tale} (outermost : t.Outermost) (outermost' : later.Outermost) :
    (t.append later).Outermost := by
  induction t with
  | done => exact outermost'
  | handed => exact outermost.elim
  | called m inside rest _ ih => exact ⟨outermost.1, ih outermost.2⟩
  | executed path line inside rest _ ih => exact ⟨outermost.1, ih outermost.2⟩

end Tale

namespace World

theorem stack_inSetup {α : Type} (n : Nat) (f : Setup → α × Setup) (w : World) :
    (w.inSetup n f).2.stack = w.stack := by
  unfold inSetup
  split <;> rfl

theorem stack_define (typeName : String) (methods : List (String × Code)) (w : World) :
    (w.define typeName methods).stack = w.stack := by
  rw [define_eq]
  refine List.foldlRecOn (motive := fun w' : World => w'.stack = w.stack) _ _ rfl ?_
  intro w' same o _
  cases o with
  | engine n => exact (stack_inSetup n _ w').trans same
  | watcher label => exact same

theorem stack_load (path : String) (lines : List UInt32) (w : World) :
    (w.load path lines).2.stack = w.stack := by
  rw [load_eq]
  refine List.foldlRecOn (motive := fun w' : World => w'.stack = w.stack) _ _ rfl ?_
  intro w' same o _
  cases o with
  | engine n => exact (stack_inSetup n _ w').trans same
  | watcher label => exact same

end World

namespace Action

theorem respects_stack_reportAll (engine group : Nat) (e : Execution) (stack : List StackFrame) :
    Respects (·.stack = stack) (reportAll engine group e) := by
  apply respects_get
  intro w _
  refine respects_forM _ fun k _ => respects_guarded_of ?_ fun _ same => same
  exact respects_report_of e (fun w same => (World.stack_inSetup _ _ w).trans same)
    fun f w _ same => (World.stack_inSetup _ _ w).trans same

end Action

namespace Telling

variable {α β : Type} {w : World}

/-- In a frame, hooks are handed what they should be, and it is left where the code stands. -/
def KeepsFrom (w : World) (x : Telling α) : Prop :=
  ∀ callers here, w.stack = here :: callers →
    (x w).2.Lists callers here ∧ (x w).1.2.stack = (x w).2.place here :: callers

def Keeps (x : Telling α) : Prop := ∀ w, KeepsFrom w x

theorem keepsFrom_silent {x : Action α} (still : (x w).2.stack = w.stack) :
    KeepsFrom w (silent x) :=
  fun _ _ stack => ⟨trivial, still.trans stack⟩

theorem keeps_pure (a : α) : Keeps (pure a : Telling α) := fun _ => keepsFrom_silent rfl

theorem keepsFrom_bind {x : Telling α} {f : α → Telling β} (first : KeepsFrom w x)
    (later : ∀ a, Keeps (f a)) : KeepsFrom w (x >>= f) := by
  intro callers here stack
  obtain ⟨lists, left⟩ := first callers here stack
  rw [bind_apply]
  rcases ended : x w with ⟨⟨e | a, w'⟩, tale⟩
  · rw [ended] at lists left
    exact ⟨lists, left⟩
  · rw [ended] at lists left
    obtain ⟨lists', left'⟩ := later a w' callers (tale.place here) left
    refine ⟨lists.append lists', ?_⟩
    rw [Tale.place_append]
    exact left'

theorem keeps_bind {x : Telling α} {f : α → Telling β} (first : Keeps x)
    (later : ∀ a, Keeps (f a)) : Keeps (x >>= f) := fun w => keepsFrom_bind (first w) later

theorem look_bind_apply (f : World → Telling β) (w : World) : (look >>= f) w = f w w := rfl

theorem bind_pure_tells (x : Telling α) (f : α → β) (w : World) :
    ((x >>= fun a => pure (f a)) w).1.2 = (x w).1.2 ∧
      ((x >>= fun a => pure (f a)) w).2 = (x w).2 := by
  rw [bind_apply]
  rcases x w with ⟨⟨e | a, w'⟩, tale⟩
  · exact ⟨rfl, rfl⟩
  · exact ⟨rfl, tale.append_done⟩

theorem keeps_look {f : World → Telling β} (later : ∀ w, KeepsFrom w (f w)) :
    Keeps (look >>= f) := by
  intro w callers here stack
  exact later w callers here stack

theorem keepsFrom_hand (x : Telling α) (later : KeepsFrom w x) :
    KeepsFrom w (hand w.stack >>= fun _ => x) := by
  intro callers here stack
  obtain ⟨lists, left⟩ := later callers here stack
  exact ⟨⟨stack, lists⟩, left⟩

theorem inFrame_tells {x : Telling α} (keeps : Keeps x) (frame : StackFrame) (w : World) :
    (inFrame frame x w).2.Lists w.stack frame ∧ (inFrame frame x w).1.2.stack = w.stack := by
  obtain ⟨lists, left⟩ := keeps { w with stack := frame :: w.stack } w.stack frame rfl
  refine ⟨lists, ?_⟩
  show (x { w with stack := frame :: w.stack }).1.2.stack.tail = w.stack
  rw [left]
  rfl

section Runner

variable {acts : Acts} (still : ∀ n g e stack, Action.Respects (·.stack = stack) (acts n g e))
  {run : Teller} (runs : ∀ args code, Keeps (run args code))
include still runs

theorem keepsFrom_fire {e : Execution} (now : Reporter.stackOf e = w.stack) (callback : Callback) :
    KeepsFrom w (fire acts run e callback) := by
  unfold fire
  rw [now]
  apply keepsFrom_hand
  cases callback with
  | record label => exact keepsFrom_silent rfl
  | probes engine group =>
    exact keepsFrom_silent (still engine group e w.stack w rfl)
  | script code => exact keepsFrom_bind (runs _ code w) fun _ => keeps_pure ()

omit still runs in
theorem keeps_intercepted (label : String) : Keeps (intercepted label) :=
  keeps_look fun _ => keepsFrom_hand _ (keepsFrom_silent rfl)

theorem keeps_perform (args : CallArgs) (body : Body) : Keeps (perform acts run args body) := by
  induction body with
  | program code => exact runs args code
  | hooked manager method installation callback saved ih =>
    refine keeps_look fun w => keepsFrom_bind (ih w) fun returned => ?_
    split
    · refine keeps_look fun w => keepsFrom_bind (keepsFrom_fire still runs rfl callback) fun _ => ?_
      exact keeps_pure returned
    · exact keeps_pure returned
  | wrapped serial label saved ih =>
    exact keeps_bind (keeps_intercepted label) fun _ => keeps_bind ih fun _ => keeps_pure _
  | replaced serial label => exact keeps_bind (keeps_intercepted label) fun _ => keeps_pure _

theorem keeps_traceLine (traces : List LineTrace) (path : String) (line : UInt32) (locals : Vars) :
    Keeps (traceLine acts run traces path line locals) := by
  unfold traceLine
  induction traces with
  | nil => exact keeps_pure _
  | cons t rest ih =>
    refine keeps_bind ?_ fun _ => ih
    dsimp only
    split
    · exact keeps_look fun w => keepsFrom_fire still runs rfl t.callback
    · exact keeps_pure _

theorem call_tells (m : MethodName) (args : CallArgs) (w : World) :
    (call acts run m args w).1.2.stack = w.stack ∧
      ((call acts run m args w).2 = .done ∨
        ∃ inside, (call acts run m args w).2 = .called m inside .done ∧
          inside.Lists w.stack (Action.frameOf m)) := by
  unfold call
  rw [look_bind_apply]
  cases w.host.body? m with
  | none => exact ⟨rfl, .inl rfl⟩
  | some body =>
    obtain ⟨lists, left⟩ := inFrame_tells (keeps_perform still runs args body) (Action.frameOf m) w
    obtain ⟨world, tale⟩ := bind_pure_tells
      (within (.called m · .done) (inFrame (Action.frameOf m) (perform acts run args body)))
      Except.ok w
    refine ⟨(congrArg World.stack world).trans left, .inr ⟨_, tale, lists⟩⟩

theorem executeLine_tells (path : String) (line : UInt32) (locals : Vars) (w : World) :
    (executeLine acts run path line locals w).2 = .done ∧
        (executeLine acts run path line locals w).1.2 = w ∨
      ∃ inside, (executeLine acts run path line locals w).2 = .executed path line inside .done ∧
        match w.stack with
        | here :: callers =>
          let moved := { here with file := path, line }
          inside.Lists callers moved ∧
            (executeLine acts run path line locals w).1.2.stack = inside.place moved :: callers
        | [] => inside.Lists [] ⟨path, "<main>", line⟩ ∧
            (executeLine acts run path line locals w).1.2.stack = [] := by
  have traced := keeps_traceLine still runs (w.host.tracesOf path line) path line locals
  unfold executeLine
  rw [look_bind_apply]
  split
  · refine .inr ⟨_, rfl, ?_⟩
    cases stack : w.stack with
    | nil =>
      have framed := inFrame_tells traced ⟨path, "<main>", line⟩ w
      rw [stack] at framed
      exact framed
    | cons here callers =>
      exact traced { w with stack := { here with file := path, line } :: callers } _ _ rfl
  · exact .inl ⟨rfl, rfl⟩

theorem keeps_call (m : MethodName) (args : CallArgs) : Keeps (call acts run m args) := by
  intro w callers here stack
  obtain ⟨left, silent | ⟨inside, told, lists⟩⟩ := call_tells still runs m args w
  · rw [silent, left]
    exact ⟨trivial, stack⟩
  · rw [told, left]
    rw [stack] at lists
    exact ⟨⟨lists, trivial⟩, stack⟩

theorem keeps_executeLine (path : String) (line : UInt32) (locals : Vars) :
    Keeps (executeLine acts run path line locals) := by
  intro w callers here stack
  rcases executeLine_tells still runs path line locals w with ⟨told, same⟩ | ⟨inside, told, told'⟩
  · rw [told, same]
    exact ⟨trivial, stack⟩
  · rw [stack] at told'
    obtain ⟨lists, left⟩ := told'
    rw [told]
    exact ⟨⟨lists, trivial⟩, left⟩

theorem keeps_instruct (args : CallArgs) (i : Instruction) : Keeps (instruct acts run args i) := by
  cases i with
  | call method positional named =>
    refine keeps_bind (fun w => keepsFrom_silent rfl) fun callArgs => ?_
    refine keeps_bind (keeps_call still runs method callArgs) fun answer => ?_
    split <;> exact keeps_pure _
  | recurse method =>
    simp only [instruct]
    split
    · split
      · exact keeps_bind (keeps_call still runs method _) fun _ => keeps_pure _
      · exact keeps_pure _
    · exact keeps_pure _
  | line path line locals =>
    refine keeps_bind (fun w => keepsFrom_silent rfl) fun locals => ?_
    exact keeps_bind (keeps_executeLine still runs path line locals) fun _ => keeps_pure _
  | load path lines => exact fun w => keepsFrom_silent (World.stack_load path lines w)
  | define typeName methods =>
    exact fun w => keepsFrom_silent (World.stack_define typeName methods w)
  | process engine documents => exact fun w => keepsFrom_silent (World.stack_inSetup engine _ w)
  | set n field value =>
    have still : ∀ stack, Action.Respects (fun w => w.stack = stack)
        (Action.instruct (fun _ _ => pure .nil) args (.set n field value)) := by
      intro stack
      refine Action.respects_bind (fun _ same => same) fun v => ?_
      split
      · exact Action.respects_bind (Action.respects_update fun _ same => same) fun _ =>
          Action.respects_pure _
      · exact Action.respects_pure _
    exact fun w => keepsFrom_silent (still w.stack w rfl)
  | double n =>
    refine fun w => keepsFrom_silent ?_
    simp only [Action.instruct]
    cases Action.argument args n <;> rfl
  | _ => exact fun w => keepsFrom_silent rfl

omit still runs in
theorem keeps_foldlM (l : List Instruction) {f : α → Instruction → Telling α}
    (each : ∀ a i, Keeps (f a i)) : ∀ a, Keeps (l.foldlM f a) := by
  induction l with
  | nil => exact fun a => keeps_pure a
  | cons i rest ih => exact fun a => keeps_bind (each a i) ih

end Runner

theorem keeps_runCode {acts : Acts}
    (still : ∀ n g e stack, Action.Respects (·.stack = stack) (acts n g e)) (fuel : Nat) :
    ∀ args code, Keeps (runCode acts fuel args code) := by
  induction fuel with
  | zero => exact fun _ _ _ => keepsFrom_silent rfl
  | succ fuel ih =>
    exact fun args code => keeps_foldlM code (fun _ i => keeps_instruct still ih args i) _

end Telling

namespace World

def recount (fuel : Nat) (w : World) : Event → World × Tale
  | .call m args =>
    let told := Telling.call Action.reportAll (Telling.runCode Action.reportAll fuel) m args w
    (told.1.2, told.2)
  | .line path line locals =>
    let told := Telling.executeLine Action.reportAll (Telling.runCode Action.reportAll fuel) path
      line locals w
    (told.1.2, told.2)
  | event => (w.take fuel event, .done)

def recountAll (fuel : Nat) (w : World) : List Event → World × Tale
  | [] => (w, .done)
  | event :: rest =>
    let (w', tale) := w.recount fuel event
    let (w'', later) := w'.recountAll fuel rest
    (w'', tale.append later)

theorem recount_fst (fuel : Nat) (w : World) (event : Event) :
    (w.recount fuel event).1 = w.take fuel event := by
  cases event with
  | call m args =>
    have plain := Telling.action_call Action.reportAll (Telling.runCode Action.reportAll fuel) m
      args
    rw [Telling.plain_runCode, Action.callWith_reportAll, Action.runCodeWith_reportAll] at plain
    exact congrArg (fun x => (x w).2) plain
  | line path line locals =>
    have plain := Telling.action_executeLine Action.reportAll
      (Telling.runCode Action.reportAll fuel) path line locals
    rw [Telling.plain_runCode, Action.executeLineWith_reportAll,
      Action.runCodeWith_reportAll] at plain
    exact congrArg (fun x => (x w).2) plain
  | _ => rfl

theorem recount_outermost (fuel : Nat) {w : World} (outside : w.stack = []) (event : Event) :
    (w.recount fuel event).2.Outermost ∧ (w.recount fuel event).1.stack = [] := by
  have still := Action.respects_stack_reportAll
  have runs := Telling.keeps_runCode still fuel
  cases event with
  | call m args =>
    obtain ⟨left, silent | ⟨inside, told, lists⟩⟩ := Telling.call_tells still runs m args w
    · exact ⟨silent ▸ trivial, left.trans outside⟩
    · rw [outside] at lists
      exact ⟨told ▸ ⟨lists, trivial⟩, left.trans outside⟩
  | line path line locals =>
    rcases Telling.executeLine_tells still runs path line locals w
      with ⟨silent, same⟩ | ⟨inside, told, rest⟩
    · exact ⟨silent ▸ trivial, (congrArg World.stack same).trans outside⟩
    · rw [outside] at rest
      exact ⟨told ▸ ⟨rest.1, trivial⟩, rest.2⟩
  | define typeName methods => exact ⟨trivial, (stack_define typeName methods w).trans outside⟩
  | load path lines => exact ⟨trivial, (stack_load path lines w).trans outside⟩
  | process documents => exact ⟨trivial, (stack_inSetup 0 _ w).trans outside⟩
  | store heap => exact ⟨trivial, outside⟩
  | deliver => exact ⟨trivial, (stack_inSetup 0 _ w).trans outside⟩

theorem recountAll_fst (fuel : Nat) (events : List Event) (w : World) :
    (w.recountAll fuel events).1 = w.after fuel events := by
  induction events generalizing w with
  | nil => rfl
  | cons event rest ih =>
    show ((w.recount fuel event).1.recountAll fuel rest).1 = (w.take fuel event).after fuel rest
    rw [recount_fst, ih]

theorem recountAll_outermost (fuel : Nat) (events : List Event) {w : World}
    (outside : w.stack = []) :
    (w.recountAll fuel events).2.Outermost ∧ (w.recountAll fuel events).1.stack = [] := by
  induction events generalizing w with
  | nil => exact ⟨trivial, outside⟩
  | cons event rest ih =>
    obtain ⟨first, outside'⟩ := recount_outermost fuel outside event
    obtain ⟨later, outside''⟩ := ih outside'
    exact ⟨first.append later, outside''⟩

/-- Whatever is called and executed on a host, one after the other, with whatever hooks: the code
that tells of it is the code of the host; every stack that it hands to a hook lists the calls in
progress, and the frame of a line that is executed outside of all calls; and when a call or a line
has ended there, in whatever way, no frame is left. -/
theorem stack_disciplined (fuel : Nat) (events : List Event) (w : World) :
    let outside := { w with stack := [] }
    let (reached, tale) := outside.recountAll fuel events
    reached = outside.after fuel events ∧ tale.Outermost ∧ reached.stack = [] :=
  ⟨recountAll_fst fuel events _, recountAll_outermost fuel events rfl⟩

namespace Sample

/-- A job that executes a line, calls itself as often as it is told, and panics; the hook of the
line executes another line and calls for help. -/
def jobs : World :=
  let host := ({} : Host).define "Job"
    [("run", .program [.line "/app/f.rb" 3 [], .recurse ⟨"Job", "run"⟩, .panic "tired"]),
      ("help", .replaced 0 "help")]
  let (_, host) := host.load "/app/f.rb" [3, 7]
  let (_, host) := host.interceptLine none "f.rb" 3 (some ⟨"f.rb", 3⟩)
    (.script [.line "/app/f.rb" 7 [], .call ⟨"Job", "help"⟩ [] []])
  { host }

end Sample

open Sample in
example :
    let at3 (function : String) : StackFrame := ⟨"/app/f.rb", function, 3⟩
    let at7 (function : String) : StackFrame := ⟨"/app/f.rb", function, 7⟩
    let asked (function : String) (callers : List StackFrame) (rest : Tale) : Tale :=
      .executed "/app/f.rb" 3
        (.handed (at3 function :: callers)
          (.executed "/app/f.rb" 7 .done
            (.called ⟨"Job", "help"⟩
              (.handed (⟨"unknown", "Job.help", 0⟩ :: at7 function :: callers) .done) .done)))
        rest
    (jobs.recountAll 5
        [.call ⟨"Job", "run"⟩ { positional := [.integer 1] }, .line "/app/f.rb" 3 []]).2 =
      .called ⟨"Job", "run"⟩
        (asked "Job.run" []
          (.called ⟨"Job", "run"⟩ (asked "Job.run" [at7 "Job.run"] .done) .done))
        (asked "<main>" [] .done) := by
  decide +kernel

end World
end LiveProbe
