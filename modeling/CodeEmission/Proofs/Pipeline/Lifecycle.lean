import CodeEmission.Pipeline.Driver

/-!
# The Life of a Driver

Calls on a driver come in any order and with any arguments. A `Driver.history` is what a sequence of
calls leads to, call by call, each with the driver before and after it.

* `Driver.configure_eq_ok` and `Driver.emit_eq_ok`: what the two calls did, if they were taken up.
* `Driver.lawful_exchange`: one call configures an idle driver, or has a configured one emit, or gives
  an error and changes nothing.
* `Driver.emissions_history_le`: an idle or configured driver has one emission left, and any other
  driver has none.
* `Driver.lifecycle_of_calls`: what follows for all calls on a new driver.
-/

namespace CodeEmission

variable {d d' : Driver} {o options : Options}

namespace Driver

/-- What a driver has found of a request that it accepts: the driver is idle and has a profile, the
kind of output may be filled in, the stages have names of their own, and the stages that the request
names are there and in order. -/
structure Accepted (d : Driver) (o options : Options) : Prop where
  idle : d.state = .idle
  profile : d.profile?.isSome
  kind : ∃ kind, acceptKind o.fileKind = .ok kind ∧ options = { o with fileKind := kind }
  distinct : firstRepeated? [] d.stageNames = none
  places : ∃ start stop, d.place? o.startAfter .unknownStart = .ok start ∧
    d.place? o.stopAfter .unknownStop = .ok stop ∧ ∀ i j, start = some i → stop = some j → i < j

theorem accepted_of_accept (h : d.accept o = .ok options) : d.Accepted o options := by
  simp only [accept, bind, Except.bind, pure, Except.pure, throw, throwThe, MonadExceptOf.throw] at h
  -- one split for each step that may refuse the request
  split at h
  · cases h
  next hidle =>
    split at h
    · cases h
    next hprofile =>
      split at h
      · cases h
      next kind hkind =>
        split at h
        · cases h
        next hdistinct =>
          split at h
          · cases h
          next start hstart =>
            split at h
            · cases h
            next stop hstop =>
              have hplaces (horder : ∀ i j, start = some i → stop = some j → i < j)
                  (hoptions : { o with fileKind := kind } = options) : d.Accepted o options :=
                ⟨by simpa using hidle, by simpa [Option.isSome_iff_ne_none] using hprofile,
                  ⟨kind, hkind, hoptions.symm⟩, Option.eq_none_iff_forall_ne_some.mpr hdistinct,
                  ⟨start, stop, hstart, hstop, horder⟩⟩
              split at h
              next i j =>
                split at h
                · cases h
                next horder =>
                  refine hplaces ?_ (Except.ok.inj h)
                  rintro _ _ ⟨rfl⟩ ⟨rfl⟩
                  exact Nat.lt_of_not_le horder
              next hnone =>
                exact hplaces (fun i j hi hj => absurd hj (hnone i j hi)) (Except.ok.inj h)

/-- A request that is accepted is kept, but for the kind of output, which may be filled in. The driver
was idle and has a profile. -/
theorem accept_eq_ok (h : d.accept o = .ok options) :
    d.state = .idle ∧ d.profile?.isSome ∧
      ∃ kind, acceptKind o.fileKind = .ok kind ∧ options = { o with fileKind := kind } :=
  have haccepted := accepted_of_accept h
  ⟨haccepted.idle, haccepted.profile, haccepted.kind⟩

/-- A driver that was configured holds the request and is otherwise as it was. -/
theorem configure_eq_ok (h : d.configure o = .ok d') :
    ∃ options, d.accept o = .ok options ∧ d' = { d with options, state := .configured } := by
  unfold configure at h
  cases haccept : d.accept o with
  | error cause => simp [haccept, Except.map] at h
  | ok options =>
    simp only [haccept, Except.map, Except.ok.injEq] at h
    exact ⟨options, rfl, h.symm⟩

/-- An emission that was carried out had a unit, a sink unless nothing is written, and a profile, and
it leaves the driver completed or failed, with its phases timed. -/
theorem emit_eq_ok {u? : Option CodeUnit} {sink : Sink} {e : Emission}
    (h : d.emit u? sink = .ok (e, d')) :
    ∃ u p, u? = some u ∧ d.profile? = some p ∧ d.state = .configured ∧
      (sink = .absent → d.options.fileKind = .null) ∧ e = Emission.ofDriver d p u sink ∧
      d'.profile? = d.profile? ∧ d'.stages = d.stages ∧ d'.options = d.options ∧
      d'.timer.phases = d.timer.phases ++ e.phases.map (fun name => { name := name }) ∧
      d'.state = if e.failure?.isSome then .failed else .completed := by
  unfold emit at h
  split at h
  · cases h
  next hstate =>
    split at h
    next => cases h
    next u =>
      split at h
      · cases h
      next hsink =>
        split at h
        next => cases h
        next p hprofile =>
          obtain ⟨rfl, rfl⟩ := Prod.mk.inj (Except.ok.inj h)
          refine ⟨u, p, rfl, hprofile, by simpa using hstate, fun habsent => ?_, rfl, rfl, rfl, rfl,
            rfl, rfl⟩
          simpa [habsent] using hsink

/-- A configured driver with a profile takes up an emission of a unit, if there is a sink where one is
needed. -/
theorem exists_emit_eq_ok {u : CodeUnit} {sink : Sink} {p : Profile}
    (hprofile : d.profile? = some p) (hstate : d.state = .configured)
    (hsink : sink = .absent → d.options.fileKind = .null) :
    ∃ d', d.emit (some u) sink = .ok (Emission.ofDriver d p u sink, d') := by
  have hneeded : ¬(decide (sink = .absent) && decide (d.options.fileKind ≠ .null)) = true := by
    simpa using hsink
  simp only [emit, hstate, hprofile, ne_eq, not_true_eq_false, if_false, hneeded]
  exact ⟨_, rfl⟩

end Driver

/-! ## Calls -/

/-- A call on a driver. -/
inductive Call where
  | configure (o : Options)
  | emit (u? : Option CodeUnit) (sink : Sink)
  deriving DecidableEq, Repr

/-- What a call gives back. An emission that was carried out may have failed. -/
inductive Reply where
  | configured
  | rejected (cause : ConfigureError)
  | refused (cause : EmitError)
  | emitted (e : Emission)
  deriving DecidableEq, Repr

namespace Reply

/-- Whether the call returned an error. -/
def isError : Reply → Bool
  | configured => false
  | rejected _ | refused _ => true
  | emitted e => e.failure?.isSome

/-- The error of an emission, carried out or not. -/
def emitError? : Reply → Option EmitError
  | configured | rejected _ => none
  | refused cause => some cause
  | emitted e => e.failure?

/-- The stages that were run during the call. -/
def executed : Reply → List String
  | emitted e => e.executed
  | _ => []

/-- How often the sink was written to during the call. -/
def writes : Reply → Nat
  | emitted e => e.writes
  | _ => 0

/-- How many emissions were carried out during the call. -/
def emissions : Reply → Nat
  | emitted _ => 1
  | _ => 0

end Reply

/-- A call with what came of it. -/
structure Exchange where
  /-- The driver before the call. -/
  before : Driver
  /-- The call. -/
  call : Call
  /-- What it gave back. -/
  reply : Reply
  /-- The driver after the call. -/
  after : Driver

/-- A count over the replies of all calls. -/
def Exchange.total (count : Reply → Nat) : List Exchange → Nat
  | [] => 0
  | x :: rest => count x.reply + total count rest

namespace Driver

/-- A new driver, with or without a profile. -/
def fresh (profile? : Option Profile) (stages : List Stage) : Driver :=
  { profile?, stages }

/-- Make a call. -/
def exchange (d : Driver) (c : Call) : Exchange :=
  match c with
  | .configure o =>
    match d.configure o with
    | .ok d' => { before := d, call := c, reply := .configured, after := d' }
    | .error cause => { before := d, call := c, reply := .rejected cause, after := d }
  | .emit u? sink =>
    match d.emit u? sink with
    | .ok (e, d') => { before := d, call := c, reply := .emitted e, after := d' }
    | .error cause => { before := d, call := c, reply := .refused cause, after := d }

@[simp]
theorem before_exchange (d : Driver) (c : Call) : (d.exchange c).before = d := by
  unfold exchange
  split <;> split <;> rfl

/-- Make calls one after another, each on the driver that the one before leaves. -/
def history (d : Driver) : List Call → List Exchange
  | [] => []
  | c :: rest => d.exchange c :: (d.exchange c).after.history rest

end Driver

/-- The ways in which a driver answers a call: it takes up a request while idle, or emits a unit while
configured, or returns an error and stays as it was. The last happens to no emission of a unit by a
configured driver that has the sink it needs. -/
inductive Exchange.Lawful (x : Exchange) : Prop where
  | configured (o : Options) (hcall : x.call = .configure o) (hreply : x.reply = .configured)
    (hbefore : x.before.state = .idle) (hafter : x.after.state = .configured)
    (hoptions : x.before.accept o = .ok x.after.options)
  | completed (u : CodeUnit) (sink : Sink) (e : Emission) (hcall : x.call = .emit (some u) sink)
    (hsink : x.before.options.fileKind ≠ .null → sink ≠ .absent) (hreply : x.reply = .emitted e)
    (hok : x.reply.isError = false) (hbefore : x.before.state = .configured)
    (hafter : x.after.state = .completed) (hoptions : x.after.options = x.before.options)
  | failed (u : CodeUnit) (sink : Sink) (e : Emission) (hcall : x.call = .emit (some u) sink)
    (hsink : x.before.options.fileKind ≠ .null → sink ≠ .absent) (hreply : x.reply = .emitted e)
    (herror : x.reply.isError = true) (hbefore : x.before.state = .configured)
    (hafter : x.after.state = .failed) (hoptions : x.after.options = x.before.options)
  | refused (herror : x.reply.isError = true) (hsame : x.after = x.before)
    (hnone : x.reply.emissions = 0)
    (hmisfit : ∀ u sink, x.call = .emit (some u) sink → x.before.state = .configured →
      x.before.options.fileKind ≠ .null ∧ sink = .absent)

/-! ## One call -/

/-- What is true of a driver between calls: it is not running, and it has a profile once it is
configured. -/
structure Driver.AtRest (d : Driver) : Prop where
  state : d.state ≠ .running
  profile : d.state = .configured → d.profile?.isSome

namespace Driver

theorem atRest_fresh (profile? : Option Profile) (stages : List Stage) :
    (fresh profile? stages).AtRest where
  state := nofun
  profile := nofun

/-- A driver at rest answers a call in one of the lawful ways and is at rest again. -/
theorem lawful_exchange (hd : d.AtRest) (c : Call) :
    (d.exchange c).Lawful ∧ (d.exchange c).after.AtRest := by
  -- by the call and whether it was taken up
  cases c with
  | configure o =>
    simp only [exchange]
    cases hconfigure : d.configure o with
    | error cause => exact ⟨.refused rfl rfl rfl nofun, hd⟩
    | ok d' =>
      obtain ⟨options, haccept, rfl⟩ := configure_eq_ok hconfigure
      obtain ⟨hidle, hprofile, -⟩ := accept_eq_ok haccept
      exact ⟨.configured o rfl rfl hidle rfl haccept, ⟨nofun, fun _ => hprofile⟩⟩
  | emit u? sink =>
    simp only [exchange]
    cases hemit : d.emit u? sink with
    | error cause =>
      refine ⟨.refused rfl rfl rfl ?_, hd⟩
      -- the unit, the state and the profile are as they should be, so it is the sink that is missing
      rintro u _ ⟨rfl, rfl⟩ hstate
      obtain ⟨p, hprofile⟩ := Option.isSome_iff_exists.mp (hd.profile hstate)
      by_cases hsink : sink = .absent → d.options.fileKind = .null
      · obtain ⟨d', hok⟩ := exists_emit_eq_ok (u := u) hprofile hstate hsink
        rw [hok] at hemit
        cases hemit
      · obtain ⟨habsent, hkind⟩ := Classical.not_imp.mp hsink
        exact ⟨hkind, habsent⟩
    | ok result =>
      obtain ⟨e, d'⟩ := result
      obtain ⟨u, p, rfl, hprofile, hstate, hsink, -, hprofile', -, hoptions, -, hstate'⟩ :=
        emit_eq_ok hemit
      have hneeded : d.options.fileKind ≠ .null → sink ≠ .absent :=
        fun hkind habsent => hkind (hsink habsent)
      cases hfailure : e.failure? with
      | none =>
        have hcompleted : d'.state = .completed := by rw [hstate', hfailure]; rfl
        refine ⟨.completed u sink e rfl hneeded rfl ?_ hstate hcompleted hoptions, ?_, ?_⟩
        · simp [Reply.isError, hfailure]
        · simp [hcompleted]
        · simp [hcompleted]
      | some cause =>
        have hfailed : d'.state = .failed := by rw [hstate', hfailure]; rfl
        refine ⟨.failed u sink e rfl hneeded rfl ?_ hstate hfailed hoptions, ?_, ?_⟩
        · simp [Reply.isError, hfailure]
        · simp [hfailed]
        · simp [hfailed]

end Driver

/-- How many emissions a driver in a position may still carry out. -/
def Lifecycle.emissionsLeft : Lifecycle → Nat
  | idle | configured => 1
  | running | completed | failed => 0

/-- A call that carries out an emission uses up what was left. -/
theorem Exchange.Lawful.emissions_add_left_le {x : Exchange} (h : x.Lawful) :
    x.reply.emissions + x.after.state.emissionsLeft ≤ x.before.state.emissionsLeft := by
  cases h with
  | configured o _ hreply hbefore hafter =>
    simp [hreply, hbefore, hafter, Reply.emissions, Lifecycle.emissionsLeft]
  | completed u sink e _ _ hreply _ hbefore hafter =>
    simp [hreply, hbefore, hafter, Reply.emissions, Lifecycle.emissionsLeft]
  | failed u sink e _ _ hreply _ hbefore hafter =>
    simp [hreply, hbefore, hafter, Reply.emissions, Lifecycle.emissionsLeft]
  | refused _ hsame hnone _ => simp [hsame, hnone]

/-! ## All calls -/

namespace Driver

/-- What holds of every call on a driver at rest holds of all calls of a history. -/
theorem forall_history (P : Exchange → Prop)
    (hstep : ∀ d : Driver, d.AtRest → ∀ c, P (d.exchange c)) (hd : d.AtRest) {calls : List Call}
    {x : Exchange} (hx : x ∈ d.history calls) : P x := by
  induction calls generalizing d with
  | nil => cases hx
  | cons c rest ih =>
    rcases List.mem_cons.mp hx with rfl | hx
    · exact hstep d hd c
    · exact ih (lawful_exchange hd c).2 hx

/-- Over a history no more emissions are carried out than the driver has left. -/
theorem emissions_history_le (hd : d.AtRest) (calls : List Call) :
    Exchange.total Reply.emissions (d.history calls) ≤ d.state.emissionsLeft := by
  -- the driver after the first call has so much less left as that call has used up
  induction calls generalizing d with
  | nil => exact Nat.zero_le _
  | cons c rest ih =>
    obtain ⟨hlawful, hrest⟩ := lawful_exchange hd c
    have hfirst := hlawful.emissions_add_left_le
    have hlater := ih hrest
    rw [before_exchange] at hfirst
    rw [history, Exchange.total]
    omega

end Driver

/-- A sink is written to at most once by an emission, and not at all without one. -/
theorem Reply.writes_le_emissions (r : Reply) : r.writes ≤ r.emissions := by
  cases r with
  | emitted e =>
    simp only [writes, emissions, Emission.writes]
    split
    next w _ => cases w <;> simp [WriteStep.writes]
    next => exact Nat.zero_le _
  | configured => exact Nat.le_refl _
  | rejected cause => exact Nat.le_refl _
  | refused cause => exact Nat.le_refl _

/-- Stages are run by emissions only. -/
theorem Reply.one_le_emissions {r : Reply} (h : r.executed ≠ []) : 1 ≤ r.emissions := by
  cases r with
  | emitted e => exact Nat.le_refl _
  | configured => exact absurd rfl h
  | rejected cause => exact absurd rfl h
  | refused cause => exact absurd rfl h

namespace Exchange

theorem total_writes_le (history : List Exchange) :
    total Reply.writes history ≤ total Reply.emissions history := by
  induction history with
  | nil => exact Nat.le_refl _
  | cons x rest ih => exact Nat.add_le_add x.reply.writes_le_emissions ih

theorem length_filter_executed_le (history : List Exchange) :
    (history.filter fun x => x.reply.executed ≠ []).length ≤ total Reply.emissions history := by
  induction history with
  | nil => exact Nat.le_refl _
  | cons x rest ih =>
    rw [total]
    by_cases hexecuted : x.reply.executed = []
    · rw [List.filter_cons_of_neg (by simp [hexecuted])]
      omega
    · have hone := Reply.one_le_emissions hexecuted
      rw [List.filter_cons_of_pos (by simp [hexecuted]), List.length_cons]
      omega

end Exchange

/-! ## Failed emissions -/

namespace Emission

variable {p : Profile} {u : CodeUnit} {sink : Sink}

theorem write?_of_finished (h : (ofDriver d p u sink).run.ending = .finished) :
    (ofDriver d p u sink).write? =
      WriteStep.ofUnit? p d.options.fileKind sink (ofDriver d p u sink).run.unit := by
  simp only [ofDriver] at h ⊢
  rw [h]

/-- Nothing is written unless the last stage was reached. -/
theorem write?_of_not_finished (h : (ofDriver d p u sink).run.ending ≠ .finished) :
    (ofDriver d p u sink).write? = none := by
  simp only [ofDriver] at h ⊢
  split
  next hfinished => exact absurd hfinished h
  all_goals rfl

/-- Why an emission fails: a stage failed and nothing was written, or the unit after the last stage
has no rendering and nothing was written either, or the sink failed. -/
theorem failure?_eq_some {err : EmitError} (h : (ofDriver d p u sink).failure? = some err) :
    (∃ failure, (ofDriver d p u sink).run.ending = .failed failure ∧ err = .stage failure ∧
        (ofDriver d p u sink).writes = 0) ∨
      ((ofDriver d p u sink).run.ending = .finished ∧
        ((∃ cause, err = .unrendered cause ∧ (ofDriver d p u sink).writes = 0 ∧
            d.options.fileKind.render? p (ofDriver d p u sink).run.unit = some (.error cause)) ∨
          ∃ text, err = .refused text ∧ sink = .failing text)) := by
  cases hending : (ofDriver d p u sink).run.ending with
  | failed failure =>
    have hwrite : (ofDriver d p u sink).write? = none := write?_of_not_finished (by simp [hending])
    simp only [failure?, hending, Option.some.injEq] at h
    exact .inl ⟨failure, rfl, h.symm, by simp [writes, hwrite]⟩
  | stopped =>
    have hwrite : (ofDriver d p u sink).write? = none := write?_of_not_finished (by simp [hending])
    simp [failure?, hending, hwrite] at h
  | finished =>
    refine .inr ⟨rfl, ?_⟩
    have hwrite := write?_of_finished hending
    cases hrender : d.options.fileKind.render? p (ofDriver d p u sink).run.unit with
    | none => simp [failure?, hending, hwrite, WriteStep.ofUnit?, hrender] at h
    | some rendered =>
      simp only [WriteStep.ofUnit?, hrender, Option.map_some] at hwrite
      cases rendered with
      | error cause =>
        simp only [failure?, hending, hwrite, Option.some.injEq] at h
        exact .inl ⟨cause, h.symm, by simp [writes, hwrite, WriteStep.writes], rfl⟩
      | ok output =>
        -- the rendering is handed over in one piece, so only the sink can fail now
        cases sink with
        | failing text =>
          simp only [failure?, hending, hwrite, Option.some.injEq] at h
          exact .inr ⟨text, h.symm, rfl⟩
        | accepting => simp [failure?, hending, hwrite] at h
        | absent => simp [failure?, hending, hwrite] at h

end Emission

/-- A call that returned an error of emission has written nothing, unless the sink itself failed. -/
theorem Driver.writes_of_emitError (d : Driver) (c : Call) {err : EmitError}
    (h : (d.exchange c).reply.emitError? = some err) :
    (d.exchange c).reply.writes = 0 ∨
      ∃ u? text, (d.exchange c).call = .emit u? (.failing text) ∧ err = .refused text := by
  cases c with
  | configure o =>
    simp only [exchange] at h ⊢
    cases hconfigure : d.configure o <;> exact .inl rfl
  | emit u? sink =>
    simp only [exchange] at h ⊢
    cases hemit : d.emit u? sink with
    | error cause => exact .inl rfl
    | ok result =>
      obtain ⟨e, d'⟩ := result
      obtain ⟨u, p, rfl, -, -, -, rfl, -⟩ := emit_eq_ok hemit
      rw [hemit] at h
      rcases Emission.failure?_eq_some h with ⟨-, -, -, hnone⟩ | ⟨-, ⟨-, -, hnone, -⟩ | ⟨text, rfl, rfl⟩⟩
      · exact .inl hnone
      · exact .inl hnone
      · exact .inr ⟨some u, text, rfl, rfl⟩

/-- The life of a new driver under any sequence of calls. It is never running between two calls, and
every call is answered in one of the lawful ways. Over the whole sequence stages are run during at
most one call and the sinks are written to at most once, and a call that returns an error has written
nothing unless that is the error of the sink. -/
theorem Driver.lifecycle_of_calls (profile? : Option Profile) (stages : List Stage)
    (calls : List Call) :
    (∀ x ∈ (fresh profile? stages).history calls,
        x.before.state ≠ .running ∧ x.after.state ≠ .running ∧ x.Lawful) ∧
      (((fresh profile? stages).history calls).filter fun x => x.reply.executed ≠ []).length ≤ 1 ∧
      Exchange.total Reply.writes ((fresh profile? stages).history calls) ≤ 1 ∧
      ∀ x ∈ (fresh profile? stages).history calls, ∀ err, x.reply.emitError? = some err →
        x.reply.writes = 0 ∨
          ∃ u? text, x.call = .emit u? (.failing text) ∧ err = .refused text := by
  have hrest := atRest_fresh profile? stages
  have hemissions : Exchange.total Reply.emissions ((fresh profile? stages).history calls) ≤ 1 :=
    emissions_history_le hrest calls
  refine ⟨fun x => ?_, ?_, ?_, fun x => ?_⟩
  · refine forall_history (fun x => x.before.state ≠ .running ∧ x.after.state ≠ .running ∧ x.Lawful)
      (fun d hd c => ?_) hrest
    obtain ⟨hlawful, hafter⟩ := lawful_exchange hd c
    exact ⟨(before_exchange d c).symm ▸ hd.state, hafter.state, hlawful⟩
  · exact Nat.le_trans (Exchange.length_filter_executed_le _) hemissions
  · exact Nat.le_trans (Exchange.total_writes_le _) hemissions
  · exact forall_history (fun x => ∀ err, x.reply.emitError? = some err → x.reply.writes = 0 ∨
      ∃ u? text, x.call = .emit u? (.failing text) ∧ err = .refused text)
      (fun d _ c err => d.writes_of_emitError c) hrest

end CodeEmission
