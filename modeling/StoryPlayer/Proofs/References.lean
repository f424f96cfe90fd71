import StoryPlayer.Proofs.Origin

/-!
# References and the scripts they belong to

A script that is called hands the last values of its reference parameters back to its caller.  The
continuation of its frame says which parameters these are.

- `Story.Run` are runs, state by state, together with the scripts that were started so far and the
  numbers of their frames,
- `Player.Owned` says that the continuations of a state only name reference parameters of the scripts
  whose frames carry them,
- `StrayTail` is the step that breaks this: a tail call hands its continuation on to a script
  that does not have these parameters,
- `refs_owned_iff` shows that there is no other one, and that a script whose references are its own
  finds all of their values when it returns.
-/

namespace StoryPlayer

/-! ## Runs -/

/-- The scripts that were started, the latest first, each with the number of its frame. -/
abbrev Started := List (UInt64 × String)

/-- The script that a step starts. -/
def Player.starts? (story : Story) (p : Player) : Progress → Option String
  | .failed _ => none
  | _ => p.frames.head?.bind fun f => (f.current? story).bind Node.target?

def Started.after (story : Story) (started : Started) (p : Player) (progress : Progress) : Started :=
  match p.starts? story progress with
  | some target => (p.counter, target) :: started
  | none => started

/-- A run of a story from the start of a script, the latest state first.  The numbers of frames do
not run out. -/
inductive Story.Run (story : Story) : List (Started × Player) → Prop
  | start {script : String} {arguments : Dict Value} {p : Player} :
      Player.begin story script arguments = .ok p → Run story [([(Player.firstFrame, script)], p)]
  | step {started : Started} {p q : Player} {progress : Progress}
      {past : List (Started × Player)} :
      Run story ((started, p) :: past) → p.pending = none →
      p.dispatch story = (progress, q) → p.counter ≤ q.counter →
      Run story ((started.after story p progress, q) :: (started, p) :: past)
  | answer {started : Started} {p q : Player} {index : Nat} {past : List (Started × Player)} :
      Run story ((started, p) :: past) → Answer story p index q → p.counter ≤ q.counter →
      Run story ((started, q) :: (started, p) :: past)

/-- In a frame of a script all parameters of the script are declared. -/
structure Frame.RunsScript (story : Story) (started : Started) (f : Frame) (callee : Script) :
    Prop where
  script : ∃ name, started.lookup f.id = some name ∧ Dict.get? story.scripts name = some callee
  params : ∀ param ∈ callee.params, Dict.contains f.scope param.name = true

/-- Every frame in which a script was started is on record. -/
def Player.Registered (story : Story) (started : Started) (p : Player) : Prop :=
  ∀ f ∈ p.frames, f.root = true → ∃ callee, f.RunsScript story started callee

/-- The references of a frame belong to parameters of the script that was started in it. -/
def Player.Owned (story : Story) (started : Started) (p : Player) : Prop :=
  ∀ f ∈ p.frames, f.root = true → ∀ c, f.continuation = some c →
    ∃ name callee, started.lookup f.id = some name ∧ Dict.get? story.scripts name = some callee ∧
      ∀ key ∈ Dict.keys c.refs, callee.takesRef key = true

instance (story : Story) (started : Started) (p : Player) : Decidable (p.Owned story started) :=
  decidable_of_iff (∀ f ∈ p.frames, f.root = true → ∀ c ∈ f.continuation,
    ∃ name ∈ started.lookup f.id, ∃ callee ∈ Dict.get? story.scripts name,
      ∀ key ∈ Dict.keys c.refs, callee.takesRef key = true) (by simp [Player.Owned])

/-- The step is a tail call that hands a reference on to a script that has no such parameter. -/
inductive StrayTail (story : Story) (p q : Player) : Prop
  | mk {progress : Progress} {f : Frame} {below : List Frame} {found : String × Group}
      {id target key : String} {arguments : List Argument} {callee : Script} {c : Continuation} :
      p.pending = none → p.dispatch story = (progress, q) →
      (∀ fault, progress ≠ .failed fault) → p.frames = f :: below →
      story.group f.group = .ok found →
      found.2.nodes[f.node]? = some (.call id target arguments) →
      Act.isTailCall f found.2.nodes.length = true → f.continuation = some c →
      Dict.get? story.scripts target = some callee → key ∈ Dict.keys c.refs →
      callee.takesRef key = false → StrayTail story p q

/-! ## Parameters -/

variable {story : Story} {started : Started} {p q : Player}

/-- Every parameter is declared, whatever was declared before. -/
theorem contains_ofParams (params : List Param) (locals : Locals) :
    ∀ name, Dict.contains (params.foldl (fun locals param =>
      { scope := Dict.insert locals.scope param.name (Value.default param.type)
        types := Dict.insert locals.types param.name param.type }) locals : Locals).scope name =
      (Dict.contains locals.scope name || params.any fun param => param.name == name) := by
  induction params generalizing locals with
  | nil => simp
  | cons param rest ih =>
      intro name
      rw [List.foldl_cons, ih, Dict.contains_insert, List.any_cons]
      by_cases hname : param.name = name
      · simp [hname]
      · have hother : (param.name == name) = false := by simpa using hname
        simp [hname, hother]

theorem contains_of_assign {script name : String} {values : Dict Value} {locals locals' : Locals}
    (h : Locals.assign script values locals = .ok locals')
    (hname : Dict.contains locals.scope name = true) :
    Dict.contains locals'.scope name = true := by
  induction values generalizing locals with
  | nil =>
      cases h
      exact hname
  | cons entry rest ih =>
      rcases entry with ⟨key, value⟩
      simp only [Locals.assign] at h
      split at h
      · cases h
      · split at h
        · exact ih h (by simp [Dict.contains_insert, hname])
        · cases h

/-- A script starts with all its parameters. -/
theorem contains_of_locals {script : String} {callee : Script} {values : Dict Value}
    {locals : Locals} (hcallee : Dict.get? story.scripts script = some callee)
    (h : story.locals script values = .ok locals) :
    ∀ param ∈ callee.params, Dict.contains locals.scope param.name = true := by
  intro param hparam
  simp only [Story.locals, hcallee] at h
  refine contains_of_assign h ?_
  rw [Locals.ofParams, contains_ofParams, Bool.or_eq_true, List.any_eq_true]
  exact Or.inr ⟨param, hparam, by simp⟩

/-! ## Frames on record -/

/-- A step that does not fail starts the script that its node names. -/
theorem starts?_of_standsAt {progress : Progress} {node : Node}
    (hok : ∀ fault, progress ≠ .failed fault) (hat : p.StandsAt story node) :
    p.starts? story progress = node.target? := by
  rcases hat with ⟨f, below, hframes, hnode⟩
  cases progress with
  | failed fault => exact absurd rfl (hok fault)
  | running => simp [Player.starts?, hframes, hnode]
  | shown output => simp [Player.starts?, hframes, hnode]

/-- The record of a script stays, unless its number is used again. -/
theorem lookup_after {progress : Progress} {id : UInt64} {name : String}
    (h : started.lookup id = some name) (hid : id < p.counter) :
    (started.after story p progress).lookup id = some name := by
  unfold Started.after
  split
  · have hne : (id == p.counter) = false := by simpa using UInt64.ne_of_lt hid
    rw [List.lookup_cons, hne]
    exact h
  · exact h

/-- A script that was just started is on record under the number of its frame. -/
theorem lookup_after_started {progress : Progress} {target : String}
    (h : p.starts? story progress = some target) :
    (started.after story p progress).lookup p.counter = some target := by
  simp [Started.after, h]

/-- A frame that goes on runs the same script as before. -/
theorem Frame.RunsScript.inherits {started' : Started} {f g : Frame} {callee : Script}
    (h : f.RunsScript story started callee) (hg : f.Inherits g)
    (hlookup : ∀ name, started.lookup f.id = some name → started'.lookup f.id = some name) :
    g.RunsScript story started' callee := by
  rcases h.script with ⟨name, hname, hcallee⟩
  refine ⟨⟨name, ?_, hcallee⟩, fun param hparam => hg.names _ (h.params param hparam)⟩
  rw [hg.id]
  exact hlookup name hname

/-- After a step every frame of a script is on record: it was before, or it is the one that was
started. -/
theorem Step.registered {progress : Progress} (h : Step story p progress q)
    (hwf : p.WellFormed story) (hp : p.Registered story started) :
    q.Registered story (started.after story p progress) := by
  -- Frames that stay keep their record, as new frames get numbers that are not in use.
  have hkept : ∀ {f g : Frame}, f ∈ p.frames → f.Inherits g → g.root = true →
      ∃ callee, g.RunsScript story (started.after story p progress) callee := by
    intro f g hf hinherits hroot
    rcases hp f hf (hinherits.root ▸ hroot) with ⟨callee, hcallee⟩
    exact ⟨callee, hcallee.inherits hinherits fun name hname =>
      lookup_after hname (hwf.stacked.numbered f hf)⟩
  intro g hg hroot
  rcases h.origin with hinherited | ⟨node, hok, hat, horigin⟩
  · rcases hinherited g hg with ⟨f, hf, hinherits⟩
    exact hkept hf hinherits hroot
  · cases horigin g hg with
    | kept hf hinherits => exact hkept hf hinherits hroot
    | entered _ hinner _ => simp [hinner] at hroot
    | @started target callee values locals c htarget hcallee hlocals _ hg' =>
        refine ⟨callee, ⟨target, ?_, hcallee⟩, ?_⟩
        · rw [hg']
          exact lookup_after_started ((starts?_of_standsAt hok hat).trans htarget)
        · rw [hg']
          exact contains_of_locals hcallee hlocals

/-- An answer starts no script. -/
theorem Answer.registered {index : Nat} (h : Answer story p index q)
    (hp : p.Registered story started) : q.Registered story started := by
  intro g hg hroot
  rcases h.origin g hg with ⟨f, hf, hinherits⟩ | ⟨-, hinner, -⟩
  · rcases hp f hf (hinherits.root ▸ hroot) with ⟨callee, hcallee⟩
    exact ⟨callee, hcallee.inherits hinherits fun _ hname => hname⟩
  · simp [hinner] at hroot

/-- The first script is on record under the first number. -/
theorem begin_registered {script : String} {arguments : Dict Value}
    (h : Player.begin story script arguments = .ok p) :
    p.Registered story [(Player.firstFrame, script)] := by
  rcases begin_eq_ok h with ⟨callee, root, locals, hcallee, -, hlocals, rfl⟩
  intro f hf _
  rcases List.mem_singleton.1 hf with rfl
  exact ⟨callee, ⟨script, by rfl, hcallee⟩, contains_of_locals hcallee hlocals⟩

/-! ## References along a run -/

/-- A step that is not a stray tail call keeps references with the scripts they belong to. -/
theorem owned_of_dispatch {progress : Progress} (h : p.dispatch story = (progress, q))
    (hwf : p.WellFormed story) (hpending : p.pending = none) (hp : p.Owned story started)
    (hstray : ¬ StrayTail story p q) : q.Owned story (started.after story p progress) := by
  have hkept : ∀ {f g : Frame}, f ∈ p.frames → f.Inherits g → g.root = true →
      ∀ c, g.continuation = some c → ∃ name callee,
        (started.after story p progress).lookup g.id = some name ∧
        Dict.get? story.scripts name = some callee ∧
        ∀ key ∈ Dict.keys c.refs, callee.takesRef key = true := by
    intro f g hf hinherits hroot c hc
    obtain ⟨name, callee, hname, hrest⟩ :=
      hp f hf (hinherits.root ▸ hroot) c (hinherits.continuation ▸ hc)
    refine ⟨name, callee, ?_, hrest⟩
    rw [hinherits.id]
    exact lookup_after hname (hwf.stacked.numbered f hf)
  intro g hg hroot c hc
  rcases (step_of_dispatch h).origin with hinherited | ⟨node, hok, hat, horigin⟩
  · rcases hinherited g hg with ⟨f, hf, hinherits⟩
    exact hkept hf hinherits hroot c hc
  · cases horigin g hg with
    | kept hf hinherits => exact hkept hf hinherits hroot c hc
    | entered _ hinner _ => simp [hinner] at hroot
    | @started target callee values locals d htarget hcallee _ hon hg' =>
        obtain rfl : d = some c := by rw [← hc, hg']; rfl
        refine ⟨target, callee, ?_, hcallee, ?_⟩
        · rw [hg']
          exact lookup_after_started ((starts?_of_standsAt hok hat).trans htarget)
        · cases hon with
          | bound hbound => exact hbound
          | @tail id _ arguments f below found _ hframes hgroup htail hc' =>
              -- A reference without a parameter would make the tail call a stray one.
              intro key hkey
              by_contra htakes
              rcases hat with ⟨f', below', hframes', hnode⟩
              rcases List.cons.inj (hframes.symm.trans hframes') with ⟨rfl, rfl⟩
              have hplace : found.2.nodes[f.node]? = some (.call id target arguments) := by
                rcases Option.some.inj htarget with rfl
                exact (nodeAt?_of_group hgroup).symm.trans hnode
              exact hstray (StrayTail.mk hpending h hok hframes hgroup hplace htail hc' hcallee hkey
                (by simpa using htakes))

/-- A tail call starts a script with the continuation of its caller. -/
theorem Move.of_tailCall {script id target : String} {arguments : List Argument}
    {out : Option Output} {f : Frame} {below : List Frame} {found : String × Group}
    {c : Continuation} (h : Move story script p (.call id target arguments) out q)
    (hframes : p.frames = f :: below) (hgroup : story.group f.group = .ok found)
    (htail : Act.isTailCall f found.2.nodes.length = true) (hc : f.continuation = some c) :
    ∃ g ∈ q.frames, g.id = p.counter ∧ g.root = true ∧ g.continuation = some c := by
  cases h with
  | call hframes' hgroup' _ _ hpassed hno _ =>
      have heval := (Act.evaluates_passArguments story _ _ _ _ _).ok hpassed
      rcases heval.cons hframes' with ⟨_, _, hp, hhead, -⟩
      rcases List.cons.inj (hframes.symm.trans hp) with ⟨rfl, rfl⟩
      rw [hhead.same] at hgroup'
      rcases Except.ok.inj (hgroup.symm.trans hgroup') with rfl
      rw [isTailCall_congr hhead, htail] at hno
      cases hno
  | @tailCall _ _ _ _ _ _ c' _ _ _ _ _ hframes' _ _ _ hpassed _ hc' _ _ =>
      have heval := (Act.evaluates_passArguments story _ _ _ _ _).ok hpassed
      rcases heval.cons hframes' with ⟨_, _, hp, hhead, -⟩
      rcases List.cons.inj (hframes.symm.trans hp) with ⟨rfl, rfl⟩
      rw [hhead.same] at hc'
      obtain rfl : c = c' := Option.some.inj (hc.symm.trans hc')
      exact ⟨_, List.mem_cons_self, heval.counter, rfl, rfl⟩

/-- After a stray tail call a reference does not belong to the script that carries it. -/
theorem StrayTail.not_owned {progress : Progress} (h : StrayTail story p q)
    (hdispatch : p.dispatch story = (progress, q)) :
    ¬ q.Owned story (started.after story p progress) := by
  cases h with
  | @mk progress' f below found id target key arguments callee c _ hdispatch' hok hframes hgroup
      hplace htail hc hcallee hkey htakes =>
      obtain rfl : progress' = progress := congrArg Prod.fst (hdispatch'.symm.trans hdispatch)
      have hstarts : p.starts? story progress' = some target :=
        starts?_of_standsAt hok (standsAt_of_group hframes hgroup hplace)
      -- The step can only be the tail call itself.
      have hnew : ∃ g ∈ q.frames, g.id = p.counter ∧ g.root = true ∧ g.continuation = some c := by
        cases step_of_dispatch hdispatch with
        | concluded hnil => simp [hframes] at hnil
        | groupMissing _ _ => exact absurd rfl (hok _)
        | finished hframes' hgroup' hnone _ =>
            rcases List.cons.inj (hframes.symm.trans hframes') with ⟨rfl, rfl⟩
            rcases Except.ok.inj (hgroup.symm.trans hgroup') with rfl
            simp [hplace] at hnone
        | finishFailed _ _ _ _ => exact absurd rfl (hok _)
        | nodeFailed _ _ _ _ => exact absurd rfl (hok _)
        | moved hframes' hgroup' hnode hmove =>
            rcases List.cons.inj (hframes.symm.trans hframes') with ⟨rfl, rfl⟩
            rcases Except.ok.inj (hgroup.symm.trans hgroup') with rfl
            rcases Option.some.inj (hplace.symm.trans hnode) with rfl
            exact hmove.of_tailCall hframes hgroup htail hc
      rcases hnew with ⟨g, hg, hid, hroot, hcontinuation⟩
      intro howned
      rcases howned g hg hroot c hcontinuation with ⟨name, callee', hname, hcallee', hall⟩
      rw [hid, lookup_after_started hstarts] at hname
      rcases Option.some.inj hname with rfl
      rcases Option.some.inj (hcallee.symm.trans hcallee') with rfl
      simp [hall key hkey] at htakes

/-- An answer hands no reference on. -/
theorem Answer.owned {index : Nat} (h : Answer story p index q) (hp : p.Owned story started) :
    q.Owned story started := by
  intro g hg hroot c hc
  rcases h.origin g hg with ⟨f, hf, hinherits⟩ | ⟨-, hinner, -⟩
  · rw [hinherits.id]
    exact hp f hf (hinherits.root ▸ hroot) c (hinherits.continuation ▸ hc)
  · simp [hinner] at hroot

/-- The first script returns to nobody. -/
theorem begin_owned {script : String} {arguments : Dict Value}
    (h : Player.begin story script arguments = .ok p) :
    p.Owned story [(Player.firstFrame, script)] := by
  rcases begin_eq_ok h with ⟨callee, root, locals, -, -, -, rfl⟩
  intro f hf _ c hc
  rcases List.mem_singleton.1 hf with rfl
  cases hc

/-- The states of a run are well-formed, and their scripts are on record. -/
theorem Story.Run.registered {run : List (Started × Player)} (h : story.Run run) :
    ∀ s ∈ run, s.2.WellFormed story ∧ s.2.Registered story s.1 := by
  induction h with
  | start hbegin =>
      intro s hs
      rcases List.mem_singleton.1 hs with rfl
      exact ⟨begin_wellFormed hbegin, begin_registered hbegin⟩
  | step _ hpending hdispatch hcounter ih =>
      intro s hs
      rcases List.mem_cons.1 hs with rfl | hs
      · rcases ih _ List.mem_cons_self with ⟨hwf, hregistered⟩
        have hstep := step_of_dispatch hdispatch
        exact ⟨hstep.wellFormed hwf hpending hcounter, hstep.registered hwf hregistered⟩
      · exact ih s hs
  | answer _ hanswer hcounter ih =>
      intro s hs
      rcases List.mem_cons.1 hs with rfl | hs
      · rcases ih _ List.mem_cons_self with ⟨hwf, hregistered⟩
        exact ⟨hanswer.wellFormed hwf hcounter, hanswer.registered hregistered⟩
      · exact ih s hs

/-- References stay with the scripts they belong to exactly as long as no tail call is a stray one. -/
theorem Story.Run.owned_iff {run : List (Started × Player)} (h : story.Run run) :
    (∀ s ∈ run, s.2.Owned story s.1) ↔
      run.IsChain fun later earlier => ¬ StrayTail story earlier.2 later.2 := by
  -- By induction on the run: both sides grow by one condition with every state.
  induction h with
  | start hbegin =>
      refine ⟨fun _ => List.IsChain.singleton _, fun _ s hs => ?_⟩
      rcases List.mem_singleton.1 hs with rfl
      exact begin_owned hbegin
  | step hrun hpending hdispatch _ ih =>
      rw [List.forall_mem_cons, List.isChain_cons_cons, ← ih]
      constructor
      · rintro ⟨hq, hpast⟩
        exact ⟨fun hstray => hstray.not_owned hdispatch hq, hpast⟩
      · rintro ⟨hstray, hpast⟩
        rcases hrun.registered _ List.mem_cons_self with ⟨hwf, -⟩
        have hp := hpast _ List.mem_cons_self
        exact ⟨owned_of_dispatch hdispatch hwf hpending hp hstray, hpast⟩
  | answer hrun hanswer _ ih =>
      rw [List.forall_mem_cons, List.isChain_cons_cons, ← ih]
      constructor
      · rintro ⟨-, hpast⟩
        -- A stray tail call is a step, and no step is taken while a choice waits.
        refine ⟨fun hstray => ?_, hpast⟩
        cases hstray with
        | mk hpending _ _ _ _ _ _ _ _ _ _ =>
            cases hanswer with
            | mk hwaiting _ _ _ _ _ => exact absurd (hpending.symm.trans hwaiting) (by simp)
      · rintro ⟨-, hpast⟩
        exact ⟨hanswer.owned (hpast _ List.mem_cons_self), hpast⟩

/-! ## Values that are handed over -/

/-- What a path that cannot be written to is blamed on. -/
inductive WriteFault : Fault → Prop
  | pathInvalid (path : String) : WriteFault (.pathInvalid path)
  | globalReadonly (name : String) : WriteFault (.globalReadonly name)
  | variableUnwritable (name : String) : WriteFault (.variableUnwritable name)
  | variableType (name expected actual : String) :
      WriteFault (.variableType name expected actual)
  | pathUnwritable (path reason : String) : WriteFault (.pathUnwritable path reason)

theorem writeFault_of_unwritable (frames : List Frame) (name : String) :
    WriteFault (Frames.unwritable story frames name) := by
  unfold Frames.unwritable
  split
  · exact WriteFault.globalReadonly name
  · exact WriteFault.variableUnwritable name

theorem writeFault_of_write {frames : List Frame} {name : String} {value : Value} {fault : Fault}
    (h : Frames.write story frames name value = .error fault) : WriteFault fault := by
  unfold Frames.write Frames.checkType at h
  split at h
  · split at h
    · cases h
    · next hcheck =>
      cases h
      split at hcheck
      · split at hcheck
        · cases hcheck
        · cases hcheck
          exact WriteFault.variableType _ _ _
      · cases hcheck
  · cases h
    exact writeFault_of_unwritable frames name

/-- A write fails because of the path, of a document, of a missing name or of the type. -/
theorem writeFault_of_writePath {frames : List Frame} {path : String} {value : Value}
    {fault : Fault} (h : Frames.writePath story frames path value = .error fault) :
    WriteFault fault := by
  unfold Frames.writePath Path.parse at h
  cases hpath : Path.parse? path with
  | none =>
      simp only [hpath, bind, Except.bind] at h
      cases h
      exact WriteFault.pathInvalid path
  | some parsed =>
      simp only [hpath, bind, Except.bind] at h
      split at h
      · exact writeFault_of_write h
      · split at h
        · cases h
          exact writeFault_of_unwritable frames parsed.root
        · split at h
          · exact writeFault_of_write h
          · cases h
            exact WriteFault.pathUnwritable _ _

/-- A write-back finds the values of references that are declared. -/
theorem writeBack_ne_missing {scope : Dict Value} {refs : Dict String} {frames : List Frame}
    {name : String} (h : ∀ key ∈ Dict.keys refs, Dict.contains scope key = true) :
    (Frames.writeBack story scope refs frames).1 ≠ .error (.refValueMissing name) := by
  induction refs generalizing frames with
  | nil =>
      intro hmissing
      cases hmissing
  | cons binding rest ih =>
      rcases binding with ⟨key, path⟩
      rcases Dict.contains_iff_exists.1 (h key List.mem_cons_self) with ⟨value, hvalue⟩
      simp only [Frames.writeBack, hvalue]
      split
      · next fault hwrite =>
        rintro hmissing
        cases hmissing
        cases writeFault_of_writePath hwrite
      · exact ih fun other hother => h other (List.mem_cons_of_mem _ hother)

/-- A reference that belongs to a script on record is a variable of its frame. -/
theorem Player.Registered.declares {f : Frame} {c : Continuation}
    (h : p.Registered story started) (howned : p.Owned story started) (hf : f ∈ p.frames)
    (hroot : f.root = true) (hc : f.continuation = some c) :
    ∀ key ∈ Dict.keys c.refs, Dict.contains f.scope key = true := by
  intro key hkey
  -- The record of the frame names one script, so both facts are about the same one.
  rcases h f hf hroot with ⟨callee, ⟨name, hname, hcallee⟩, hparams⟩
  rcases howned f hf hroot c hc with ⟨name', callee', hname', hcallee', htakes⟩
  rcases Option.some.inj (hname.symm.trans hname') with rfl
  rcases Option.some.inj (hcallee.symm.trans hcallee') with rfl
  rcases List.any_eq_true.1 (htakes key hkey) with ⟨param, hparam, hmatch⟩
  obtain ⟨hkey', -⟩ : param.name = key ∧ param.byRef = true := by simpa using hmatch
  rw [← hkey']
  exact hparams param hparam

/-- Every state that is reached from the start of a script is the latest one of a run. -/
theorem exists_run {script : String} {arguments : Dict Value} {requests : List Request}
    (hbegin : Player.begin story script arguments = .ok p)
    (hlasts : CounterLasts story p requests) :
    ∃ started past, story.Run ((started, p.play story requests) :: past) := by
  refine play_lasting (I := fun q => ∃ started past, story.Run ((started, q) :: past)) requests
    ⟨_, _, Story.Run.start hbegin⟩ hlasts ?_ ?_
  · rintro p progress q ⟨started, past, hrun⟩ hpending hdispatch hcounter
    exact ⟨_, _, hrun.step hpending hdispatch hcounter⟩
  · rintro p index q ⟨started, past, hrun⟩ hanswer hcounter
    exact ⟨_, _, hrun.answer hanswer hcounter⟩

/-- In all states of a run references belong to the scripts whose frames carry them exactly if no step
of the run is a stray tail call.  As long as they do, they are variables of these frames, and no
value is missing when a script returns, even after its variables have changed. -/
theorem refs_owned_iff {run : List (Started × Player)} (h : story.Run run) :
    ((∀ s ∈ run, s.2.Owned story s.1) ↔
      run.IsChain fun later earlier => ¬ StrayTail story earlier.2 later.2) ∧
    ∀ s ∈ run, s.2.Owned story s.1 → ∀ f ∈ s.2.frames, f.root = true →
      ∀ c, f.continuation = some c →
        (∀ key ∈ Dict.keys c.refs, Dict.contains f.scope key = true) ∧
        ∀ g, f.Inherits g → ∀ frames name,
          (Frames.writeBack story g.scope c.refs frames).1 ≠ .error (.refValueMissing name) := by
  refine ⟨h.owned_iff, ?_⟩
  intro s hs howned f hf hroot c hc
  rcases h.registered s hs with ⟨-, hregistered⟩
  have hdeclares := hregistered.declares howned hf hroot hc
  refine ⟨hdeclares, fun g hg frames name => ?_⟩
  exact writeBack_ne_missing fun key hkey => hg.names key (hdeclares key hkey)

/-- A script that was passed a reference ends by calling one that takes none. -/
def strayTale : Story :=
  .ofScripts [
    ("helper", .ofGroups "helper" [⟨"p", .primitive .string, true⟩] [
      ("helper", [.text "t" "hello" false, .call "k" "third" []])]),
    ("main", .ofGroups "main" [] [
      ("main", [.declare "v" ⟨"x", .primitive .string, none⟩, .call "k" "helper" [⟨"x", true⟩],
        .text "t" "done" false])]),
    ("third", .ofGroups "third" [] [("third", [.text "t" "third" false])])]

/-- The states of this story: it declares a variable, calls the one script, shows a text and calls
the other. -/
def strayTale.state : Nat → Started × Player
  | 0 => ([(Player.firstFrame, "main")], strayTale.opening)
  | n + 1 =>
    let before := strayTale.state n
    let step := before.2.dispatch strayTale
    (before.1.after strayTale before.2 step.1, step.2)

/-- The reference stays where it belongs until the last step, which is a stray tail call. -/
theorem refs_owned_iff_strayTale :
    ∃ run, strayTale.Run run ∧
      run.map (fun s => s.2.frames.map fun f => (f.group, f.continuation.map Continuation.refs)) =
        [[("third", some [("p", "x")]), ("main", none)],
          [("helper", some [("p", "x")]), ("main", none)],
          [("helper", some [("p", "x")]), ("main", none)],
          [("main", none)], [("main", none)]] ∧
      (∀ s ∈ run.tail, s.2.Owned strayTale s.1) ∧
      ¬ run.IsChain (fun later earlier => ¬ StrayTail strayTale earlier.2 later.2) ∧
      ∀ s ∈ run, s.2.Owned strayTale s.1 → ∀ f ∈ s.2.frames, f.root = true →
        ∀ c, f.continuation = some c →
          (∀ key ∈ Dict.keys c.refs, Dict.contains f.scope key = true) ∧
          ∀ g, f.Inherits g → ∀ frames name,
            (Frames.writeBack strayTale g.scope c.refs frames).1 ≠
              .error (.refValueMissing name) := by
  have hstep : ∀ n < 4, (strayTale.state n).2.pending = none ∧
      (strayTale.state n).2.counter ≤ ((strayTale.state n).2.dispatch strayTale).2.counter := by
    decide +kernel
  have hstart : strayTale.Run [strayTale.state 0] :=
    .start (rfl : Player.begin strayTale "main" [] = .ok strayTale.opening)
  have hgoes : ∀ n < 4, ∀ past, strayTale.Run (strayTale.state n :: past) →
      strayTale.Run (strayTale.state (n + 1) :: strayTale.state n :: past) :=
    fun n hn past hrun => hrun.step (hstep n hn).1 (Prod.eta _).symm (hstep n hn).2
  have hrun := hgoes 3 (by decide) _ (hgoes 2 (by decide) _ (hgoes 1 (by decide) _
    (hgoes 0 (by decide) _ hstart)))
  refine ⟨_, hrun, by decide +kernel, by decide +kernel, ?_, (refs_owned_iff hrun).2⟩
  rw [← (refs_owned_iff hrun).1]
  decide +kernel

/-- The last script of this story carries a reference that is not its own, and cannot return. -/
theorem strayTale_misses_value :
    Player.begin strayTale "main" [] = .ok strayTale.opening ∧
      (strayTale.opening.play strayTale [.next, .next]).frames.map
          (fun f => (f.group, f.continuation.map Continuation.refs)) =
        [("third", some [("p", "x")]), ("main", none)] ∧
      (Dict.get? strayTale.scripts "third").map (Script.takesRef · "p") = some false ∧
      ((strayTale.opening.play strayTale [.next, .next]).next strayTale).1 =
        .error (.refValueMissing "p") :=
  ⟨rfl, by decide +kernel, by decide, by decide +kernel⟩

end StoryPlayer
