import Settlement.Proofs.Acceptance
import Settlement.Proofs.Cancellation
import Settlement.Proofs.Session.Verdict

/-!
# Rejection

Whatever comes back over RPC, a pass makes an outcome of it: what is not an acceptable block makes
it fail for the time being, and only an acceptable block with another hash makes it demand a reset.
It rejects only where somebody else raises something: the engine when it refuses a block, or the
log when it cannot write a failure. Over a direct source a pass can also reject because there is no
block behind an answer, or none that can be told of.

A pass that rejects commits nothing, and those in line go on.

## Key results

- `raised_cases`: why a pass rejects
- `reset_cases`: why a pass demands a reset over RPC
- `uncommitted_of_ended`: a pass that ends without a commit has none at any time
- `answers_tagged`: the endings of passes, whatever the node answers
-/

namespace Settlement

/-- There is no block, or it has a hash or a number without a text. -/
def Value.Unreadable (found : Value) : Prop :=
  found.isNothing = true ∨ (∃ fault, (found.field "hash").toText = .error fault) ∨
    ∃ fault, (found.field "number").toText = .error fault

/-- `noticeLines` can write the failure of a signal that has no cause. -/
theorem Log.exists_noticeLines_failed {failure : Failure} (h : failure.cause? = none)
    (threshold : Threshold) (signal : BlockId) :
    ∃ lines, noticeLines threshold [.failed failure signal] = .ok lines := by
  have htraces : failure.causeTraces = .ok "" := by
    rw [Failure.causeTraces, h]
    rfl
  simp only [noticeLines]
  -- below the threshold it writes nothing
  cases severity? threshold (Notice.failed failure signal).level with
  | none => exact ⟨[], rfl⟩
  | some severity =>
    simp only [Notice.details, detailTexts, detailValue, htraces]
    exact ⟨_, rfl⟩

/-- `replaced` has no cause. -/
theorem Plan.cause?_replaced (plan : Plan) (stage : Stage) (actual : String) :
    (plan.replaced stage actual).failure.cause? = none := by
  cases stage <;> rfl

namespace Session

variable {s : Session} {pass : Pass} {plan : Plan} {moves past : List Move} {reason : Value}
  {ending : Ending} {failure : Failure} {number : Nat} {asked : Number}

/-! ## Why passes reject -/

/-- The log raises a fault when it is told of the failure of a signal. The pass could not reach the
block of a stage, and the log cannot write what it puts that down to (`Session.Blames`). -/
def Unwritten (s : Session) (pass : Pass) (reason : Value) : Prop :=
  ∃ plan stage cause threshold block fault, s.Pursues pass plan ∧
    s.Blames pass plan s.advance.2 stage cause ∧ s.log? = some threshold ∧
    pass.trigger = .signal block ∧
    Log.noticeLines threshold [.failed (plan.unreached stage cause).failure block.toBlockId]
      = .error fault ∧
    reason = .fault fault

/-- `endNotices` is the failure of a signal, or nothing. -/
theorem endNotices_cases (pass : Pass) (ending : Ending) :
    pass.endNotices ending = [] ∨ ∃ block failure, pass.trigger = .signal block ∧
      ending = .judged (.failed failure) ∧
      pass.endNotices ending = [.failed failure block.toBlockId] := by
  unfold Pass.endNotices
  split
  · rename_i block failure htrigger
    exact .inr ⟨block, failure, htrigger, rfl, rfl⟩
  · exact .inl rfl

/-- `logged` rejects as the pass did before the log was told, or it is `Unwritten`. -/
theorem raised_of_logged {given : Ending} (hpursues : s.Pursues pass plan)
    (hgrounds : Grounds s pass plan s.advance.2 given)
    (h : s.logged pass given = .raised reason) :
    given = .raised reason ∨ s.Unwritten pass reason := by
  rcases logged_cases s pass given with heq | ⟨threshold, fault, hlog, hlines, heq⟩
  · exact .inl (heq.symm.trans h)
  · obtain rfl := Ending.raised.inj (heq.symm.trans h)
    rcases endNotices_cases pass given with hsilent | ⟨block, failure, htrigger, rfl, htold⟩
    · rw [hsilent] at hlines
      exact nomatch hlines
    · rw [htold] at hlines
      rcases hgrounds.failure_cases with ⟨stage, cause, hblames, rfl⟩ | ⟨stage, actual, rfl⟩
      · exact .inr ⟨plan, stage, cause, threshold, block, fault, hpursues, hblames, hlog, htrigger,
          hlines, rfl⟩
      · -- a failure without a cause can be written
        obtain ⟨lines, hwritten⟩ := Log.exists_noticeLines_failed
          (plan.cause?_replaced stage actual) threshold block.toBlockId
        exact nomatch hlines.symm.trans hwritten

/-- `logged` passes a failure on as it is, or turns it into a rejection. -/
theorem failed_of_logged (h : s.logged pass ending = .judged (.failed failure)) :
    ending = .judged (.failed failure) := by
  rcases logged_cases s pass ending with heq | ⟨threshold, fault, -, -, heq⟩
  · exact heq.symm.trans h
  · exact nomatch heq.symm.trans h

/-- `advance` ends a pass in a rejection because the engine refuses its block, because the log
cannot write its failure, or over a direct source because of a block that is `Unreadable`. -/
theorem raised_cases (h : Served s) (hended : .ended pass (.raised reason) ∈ s.advance.2) :
    (∃ plan, s.Pursues pass plan ∧ s.Refuses plan reason) ∨ s.Unwritten pass reason ∨
    s.source = .direct ∧ s.reason? pass = none ∧ ∃ plan stage found, s.Pursues pass plan ∧
      .answered pass.number (plan.expected stage).number (.block found) ∈ s.advance.2 ∧
      found.Unreadable := by
  rcases grounds_of_ended h hended with hending | ⟨plan, given, hpursues, hending, hgrounds, -⟩
  · simp at hending
  rcases raised_of_logged hpursues hgrounds hending.symm with rfl | hunwritten
  · cases hgrounds with
    | refused refuses => exact .inl ⟨plan, hpursues, refuses⟩
    | @broken stage reply fault answered delivers check =>
      obtain ⟨found, rfl, hfree, hbroken⟩ := Plan.of_check_eq_broken check
      cases hsource : s.source with
      | direct =>
        exact .inr (.inr ⟨rfl, hfree, plan, stage, found, hpursues, answered,
          Plan.unreadable_of_broken hbroken⟩)
      | rpc =>
        -- what has been checked is a header, and no check breaks over that
        rw [hsource] at delivers
        obtain ⟨raw, hraw⟩ := delivers
        obtain ⟨-, -, -, header, -, rfl⟩ := Lookup.of_verified_eq_block hraw.symm
        rw [Plan.compare_toValue] at hbroken
        split at hbroken <;> exact nomatch hbroken
  · exact .inr (.inl hunwritten)

/-- `advance` over RPC ends a pass with a demand for a reset only over an acceptable block with
another hash. -/
theorem reset_cases (h : Served s) (hrpc : s.source = .rpc) (hkind : failure.kind = .reset)
    (hended : .ended pass (.judged (.failed failure)) ∈ s.advance.2) :
    s.reason? pass = none ∧ ∃ plan stage found, s.Pursues pass plan ∧
      Lookup.Acceptable (plan.expected stage).number found ∧
      .answered pass.number (plan.expected stage).number
        (Lookup.verified (plan.expected stage).number (.block found)) ∈ s.advance.2 ∧
      (found.field "hash").text? ≠ some (plan.expected stage).hash := by
  rcases grounds_of_ended h hended with hending | ⟨plan, given, hpursues, hending, hgrounds, -⟩
  · simp at hending
  obtain rfl := failed_of_logged hending.symm
  cases hgrounds with
  -- a cancellation is temporary
  | cancelled cancelled => exact nomatch hkind
  | @blocked stage reply obstacle answered last delivers check =>
    obtain ⟨block, rfl, hfree, hcompare⟩ := Plan.of_check_eq_reset check hkind
    rw [hrpc] at delivers
    obtain ⟨raw, hraw⟩ := delivers
    obtain ⟨found, rfl, hfound, header, hhash, rfl⟩ := Lookup.of_verified_eq_block hraw.symm
    have hverified : Reply.block header.toValue = Lookup.verified _ (.block found) := hraw
    refine ⟨hfree, plan, stage, found, hpursues, hfound, hverified ▸ answered, fun hsame => ?_⟩
    have hsame : header.hash = (plan.expected stage).hash := by
      rw [hhash] at hsame
      exact Option.some.inj hsame
    rw [Plan.compare_toValue, if_pos hsame] at hcompare
    exact nomatch hcompare

/-! ## What an answer does -/

/-- `resume` begins with the reply that the pass in flight hears. -/
theorem exists_snd_resume (s : Session) (flight : Flight) (reply : Reply) :
    ∃ later, (s.resume flight reply).2 = .answered flight.pass.number
      (flight.plan.expected flight.stage).number reply :: later := by
  unfold resume
  cases flight.stage with
  | signal =>
    unfold answerSignal answer
    exact ⟨_, rfl⟩
  | provenance =>
    unfold answerProvenance answer
    exact ⟨_, rfl⟩

/-- `advance` after the `release` of its lookup begins with what the pass in flight hears: the
answer of the node as the source delivers it. -/
theorem advance_of_released {flight : Flight} (hf : s.flight? = some flight)
    (hr : flight.reply? = none) {reason? : Option Value} {ticket? : Option Nat} {held : Held}
    {raw : Reply} {node : Node}
    (hreleased : s.node.release? reason? ticket? = some (held, raw, node))
    (hticket : held.ticket = flight.ticket) :
    ∃ later, (s.act (.release reason? ticket?)).1.advance.2 = .answered flight.pass.number
      (flight.plan.expected flight.stage).number
      (s.source.deliver (flight.plan.expected flight.stage).number raw) :: later := by
  let reply := s.source.deliver (flight.plan.expected flight.stage).number raw
  let t : Session := { s with node, flight? := some { flight with reply? := some reply } }
  -- the release gives the pass in flight its reply
  have hact : (s.act (.release reason? ticket?)).1 = t := by
    show s.release reason? ticket? = t
    simp [release, hreleased, deliver, hf, hr, hticket, t, reply]
  have hresume : t.advance = t.resume { flight with reply? := some reply } reply :=
    advance_resume rfl rfl
  rw [hact, hresume]
  exact exists_snd_resume t _ reply

/-- `verified` of anything but an acceptable block makes the pass that hears it fail for the time
being, and it commits nothing. -/
theorem temporary_of_answered (h : Served s) {raw : Reply}
    (hanswered : .answered number asked (Lookup.verified asked raw) ∈ s.advance.2)
    (hraw : ∀ found, raw = .block found → ¬Lookup.Acceptable asked found) :
    ∃ pass plan stage reason, s.Pursues pass plan ∧ pass.number = number ∧
      asked = (plan.expected stage).number ∧ Lookup.verified asked raw = .failure reason ∧
      s.Fails pass (plan.unreached stage reason).failure s.advance.2 ∧
      Event.commitments s.advance.2 = [] := by
  obtain ⟨reason, hfailure⟩ := Lookup.exists_failure_of_not_acceptable hraw
  rw [hfailure] at hanswered
  obtain ⟨pass, plan, stage, hpursues, rfl, rfl, -, hblocks⟩ := heard_of_answered h hanswered
  obtain ⟨hfails, hnone, -⟩ := hblocks (plan.unreached stage reason) rfl
  exact ⟨pass, plan, stage, reason, hpursues, rfl, rfl, hfailure, hfails, hnone⟩

/-- `verified` of an acceptable block with another hash makes the pass that hears it demand a
reset. -/
theorem reset_of_answered (h : Served s) {found : Value} {height : Int}
    (hasked : asked.toInt? = some height) (hfound : Lookup.AcceptableAt height found)
    (hanswered : .answered number asked (Lookup.verified asked (.block found)) ∈ s.advance.2) :
    ∃ pass plan stage hash, s.Pursues pass plan ∧ pass.number = number ∧
      asked = (plan.expected stage).number ∧ found.field "hash" = .text hash ∧
      (s.reason? pass = none → hash ≠ (plan.expected stage).hash →
        s.Fails pass
          (plan.replaced stage (BlockId.text { hash, number := .ofInt height })).failure
          s.advance.2) := by
  obtain ⟨header, hverified, hheader⟩ := Lookup.verified_of_acceptableAt hasked hfound
  rw [hverified] at hanswered
  obtain ⟨pass, plan, stage, hpursues, rfl, rfl, -, hblocks⟩ := heard_of_answered h hanswered
  refine ⟨pass, plan, stage, header.hash, hpursues, rfl, rfl, hheader.hash, fun hfree hother => ?_⟩
  -- the number that was read has the text of the height
  have htext : header.toBlockId.text = BlockId.text { header with number := .ofInt height } :=
    congrArg (fun number => BlockId.text { hash := header.hash, number }) hheader.number
  -- and the hash is another one
  have hblocked : plan.check stage (.block header.toValue) (s.reason? pass)
      = .blocked (plan.replaced stage header.toBlockId.text) := by
    rw [hfree]
    show plan.compare stage header.toValue = _
    rw [Plan.compare_toValue, if_neg hother]
  have hfails := (hblocks _ hblocked).1
  rw [htext] at hfails
  exact hfails

/-! ## Passes that end without a commit -/

/-- `Fails` ends the pass. -/
theorem Fails.exists_ended {events : List Event} (h : s.Fails pass failure events) :
    ∃ ending, .ended pass ending ∈ events := by
  rcases h with ⟨before, rfl⟩ | ⟨before, threshold, fault, -, -, rfl⟩
  · exact ⟨_, List.mem_append_right _ (List.mem_singleton.mpr rfl)⟩
  · exact ⟨_, List.mem_append_right _ (List.mem_singleton.mpr rfl)⟩

/-- `Pursues` is over once the pass has ended. -/
theorem not_pursues_of_ended (h : Fresh s) (hended : .ended pass ending ∈ (s.play moves).2) :
    ¬(s.play moves).1.Pursues pass plan := by
  have hfinished : pass ∈ Event.finished (s.play moves).2 :=
    List.mem_map.mpr ⟨_, Event.mem_endings.mpr hended, rfl⟩
  have hturns := inTurn_play h moves
  have hdistinct := hturns.distinct.of_map
  rw [← hturns.begun, begun_play h moves, List.append_assoc] at hdistinct
  have hapart := (List.nodup_append.mp hdistinct).2.2 pass hfinished pass
  -- it would be in flight or next in line, and ended all the same
  rintro (⟨flight, hf, rfl, -⟩ | ⟨-, hhead, -⟩)
  · refine hapart (List.mem_append_left _ ?_) rfl
    rw [hf]
    exact List.mem_singleton.mpr rfl
  · exact hapart (List.mem_append_right _ (List.mem_of_head? hhead)) rfl

/-- `pending` passes have committed nothing. -/
theorem not_committed_of_pending (h : Fresh s) (hpending : number ∈ (s.play moves).1.pending)
    (block : L2Block) : .committed number block ∉ (s.play moves).2 := by
  have hnone : s.pending = [] := by rw [pending, h.flight, h.waiting]; rfl
  have hnodup := List.nodup_range.sublist (pending_play s (hnone ▸ List.nil_sublist _) moves)
  intro hmem
  have hcommitted : number ∈ (Event.commitments (s.play moves).2).map Prod.fst :=
    List.mem_map.mpr ⟨_, Event.mem_commitments.mpr hmem, rfl⟩
  exact (List.nodup_append.mp hnodup).2.2 number hcommitted number hpending rfl

/-- `advance` ends passes that were `pending`. -/
theorem mem_pending_of_ended (h : Served s) (hended : .ended pass ending ∈ s.advance.2) :
    pass.number ∈ s.pending := by
  unfold pending
  have hhead : s.waiting.head? = some pass → pass.number ∈ s.waiting.map Pass.number :=
    fun hhead => List.mem_map.mpr ⟨pass, List.mem_of_head? hhead, rfl⟩
  -- it was in flight, or next in line
  rcases pursues_of_ended h hended with
    ⟨plan, ⟨flight, hf, rfl, -⟩ | ⟨-, hnext, -⟩⟩ | ⟨-, hnext, -⟩
  · rw [hf]
    exact List.mem_append_left _ (List.mem_singleton.mpr rfl)
  · exact List.mem_append_right _ (hhead hnext)
  · exact List.mem_append_right _ (hhead hnext)

/-- `advance` that ends a pass without a commit leaves it without one at any time. -/
theorem uncommitted_of_ended (h : Fresh s)
    (hended : .ended pass ending ∈ (s.play past).1.advance.2)
    (hnone : Event.commitments (s.play past).1.advance.2 = []) (later : List Move)
    (block : L2Block) : .committed pass.number block ∉ (s.play (past ++ .advance :: later)).2 := by
  have hserved := served_play h.flight past
  have hsplit : past ++ .advance :: later = (past ++ [.advance]) ++ later := by simp
  have hplay : (s.play (past ++ [.advance])).2 = (s.play past).2 ++ (s.play past).1.advance.2 := by
    rw [play_concat]
    rfl
  have hover : .ended pass ending ∈ (s.play (past ++ [.advance])).2 :=
    hplay ▸ List.mem_append_right _ hended
  rw [hsplit, play_append, Progress.snd_after, hplay]
  intro hmem
  -- before it ends, as it ends, and later
  rcases List.mem_append.mp hmem with hmem | hmem
  · rcases List.mem_append.mp hmem with hmem | hmem
    · exact not_committed_of_pending h (mem_pending_of_ended hserved hended) block hmem
    · have hcommitted := Event.mem_commitments.mpr hmem
      rw [hnone] at hcommitted
      exact List.not_mem_nil hcommitted
  · -- it is over, and does not have its turn again
    have hcalled : pass ∈ Event.calls (s.play (past ++ [.advance])).2 := by
      have hturns := inTurn_play h (past ++ [.advance])
      have hfinished : pass ∈ Event.finished (s.play (past ++ [.advance])).2 :=
        List.mem_map.mpr ⟨_, Event.mem_endings.mpr hover, rfl⟩
      rw [← hturns.begun]
      exact List.mem_append_left _ (hturns.finished.subset hfinished)
    obtain ⟨before, after, plan, rfl, hpursues, -⟩ :=
      exists_turn_of_doer h (mem_calls_append hcalled later) hmem rfl
    have hstill : .ended pass ending ∈ (s.play (past ++ [.advance] ++ before)).2 := by
      rw [play_append, Progress.snd_after]
      exact List.mem_append_left _ hover
    exact not_pursues_of_ended h hstill hpursues

/-- `advance` that ends a pass in a rejection commits nothing. -/
theorem commitments_of_raised (h : Served s) (hended : .ended pass (.raised reason) ∈ s.advance.2) :
    Event.commitments s.advance.2 = [] := by
  rcases grounds_of_ended h hended with hending | ⟨plan, given, -, hending, -, hnone⟩
  · simp at hending
  · refine hnone ?_
    rintro rfl
    have hsilent : pass.endNotices (.judged .ok) = [] := endNotices_eq nofun
    rw [logged_of_endNotices hsilent] at hending
    exact nomatch hending

/-! ## The endings of passes -/

/-- The endings of passes when a session advances after some moves, whatever the node answers. -/
structure Tagged (s : Session) (past : List Move) (t : Session) : Prop where
  /-- A pass rejects if the engine refuses its block or the log cannot write its failure, and over
  RPC for nothing else. Over a direct source it also rejects over a block that is none or cannot be
  told of, if it is not cancelled. -/
  raised : ∀ pass reason, .ended pass (.raised reason) ∈ t.advance.2 →
    (∃ plan, t.Pursues pass plan ∧ t.Refuses plan reason) ∨ t.Unwritten pass reason ∨
    s.source = .direct ∧ t.reason? pass = none ∧ ∃ plan stage found, t.Pursues pass plan ∧
      .answered pass.number (plan.expected stage).number (.block found) ∈ t.advance.2 ∧
      found.Unreadable
  /-- A pass that rejects commits nothing, and the next in line goes on. -/
  survived : ∀ pass reason, .ended pass (.raised reason) ∈ t.advance.2 →
    (∀ later block, .committed pass.number block ∉ (s.play (past ++ .advance :: later)).2) ∧
    ∀ next, t.advance.1.waiting.head? = some next →
      ∃ intake, .started next intake ∈ t.advance.1.advance.2
  /-- A pass hears what the node answers at once. -/
  prompt : ∀ number height raw, .asked number height ∈ t.advance.2 →
    t.node.immediate? height = some raw →
    ∃ asked, s.source.address asked = .ok height ∧
      .answered number asked (s.source.deliver asked raw) ∈ t.advance.2
  /-- A pass that waits hears what the node answers later, in whatever order it answers. -/
  awaited : ∀ flight reason? ticket? held raw node, t.flight? = some flight →
    flight.reply? = none → t.node.release? reason? ticket? = some (held, raw, node) →
    held.ticket = flight.ticket →
    ∃ later, (t.act (.release reason? ticket?)).1.advance.2 = .answered flight.pass.number
      (flight.plan.expected flight.stage).number
      (s.source.deliver (flight.plan.expected flight.stage).number raw) :: later
  /-- Over RPC a pass fails for the time being over whatever is not an acceptable block, and commits
  nothing. The cause is the failure that was answered, or the fault of the block. -/
  temporary : s.source = .rpc → ∀ number asked raw,
    .answered number asked (Lookup.verified asked raw) ∈ t.advance.2 →
    (∀ found, raw = .block found → ¬Lookup.Acceptable asked found) →
    ∃ pass plan stage reason, t.Pursues pass plan ∧ pass.number = number ∧
      asked = (plan.expected stage).number ∧ Lookup.verified asked raw = .failure reason ∧
      (plan.unreached stage reason).failure.kind = .temporary ∧
      t.Fails pass (plan.unreached stage reason).failure t.advance.2 ∧
      ∀ later block, .committed number block ∉ (s.play (past ++ .advance :: later)).2
  /-- Over RPC a pass demands a reset only over an acceptable block with another hash, -/
  reset : s.source = .rpc → ∀ pass failure, failure.kind = .reset →
    .ended pass (.judged (.failed failure)) ∈ t.advance.2 →
    t.reason? pass = none ∧ ∃ plan stage found, t.Pursues pass plan ∧
      Lookup.Acceptable (plan.expected stage).number found ∧
      .answered pass.number (plan.expected stage).number
        (Lookup.verified (plan.expected stage).number (.block found)) ∈ t.advance.2 ∧
      (found.field "hash").text? ≠ some (plan.expected stage).hash
  /-- and it does so over such a block, unless it is cancelled. -/
  replaced : s.source = .rpc → ∀ number asked height found,
    .answered number asked (Lookup.verified asked (.block found)) ∈ t.advance.2 →
    asked.toInt? = some height → Lookup.AcceptableAt height found →
    ∃ pass plan stage hash, t.Pursues pass plan ∧ pass.number = number ∧
      asked = (plan.expected stage).number ∧ found.field "hash" = .text hash ∧
      (t.reason? pass = none → hash ≠ (plan.expected stage).hash →
        (plan.replaced stage
          (BlockId.text { hash, number := .ofInt height })).failure.kind = .reset ∧
        t.Fails pass
          (plan.replaced stage (BlockId.text { hash, number := .ofInt height })).failure
          t.advance.2)

/-- `Tagged` holds at every point of a play: whatever the node answers, passes make outcomes of it.
They reject for other reasons than an answer, unless the source is a direct one and the block is
`Unreadable`. -/
theorem answers_tagged (h : Fresh s) (past : List Move) : s.Tagged past (s.play past).1 := by
  have hserved := served_play h.flight past
  have hsource := source_play s past
  refine ⟨?_, ?_, ?_, ?_, ?_, ?_, ?_⟩
  -- why a pass rejects
  · intro pass reason hended
    have hcases := raised_cases hserved hended
    rwa [hsource] at hcases
  -- it has committed nothing, and the next in line starts
  · intro pass reason hended
    refine ⟨uncommitted_of_ended h hended (commitments_of_raised hserved hended),
      fun next hnext => ?_⟩
    have hstarting : (s.play past).1.advance.1.starting? .advance = some next := by
      rw [starting?, landed_of_ended hserved hended]
      exact hnext
    exact ⟨_, started_mem_iff.mpr ⟨hstarting, rfl⟩⟩
  -- answers at once, and later ones
  · intro number height raw hasked hraw
    rw [← hsource]
    exact prompt_of_asked hserved hasked hraw
  · intro flight reason? ticket? held raw node hf hr hreleased hticket
    rw [← hsource]
    exact advance_of_released hf hr hreleased hticket
  -- over RPC: what is not acceptable
  · intro hrpc number asked raw hanswered hraw
    obtain ⟨pass, plan, stage, reason, hpursues, rfl, hasked, hfailure, hfails, hnone⟩ :=
      temporary_of_answered hserved hanswered hraw
    obtain ⟨ending, hended⟩ := hfails.exists_ended
    exact ⟨pass, plan, stage, reason, hpursues, rfl, hasked, hfailure, rfl, hfails,
      uncommitted_of_ended h hended hnone⟩
  -- what demands a reset
  · intro hrpc pass failure hkind hended
    exact reset_cases hserved (hsource.trans hrpc) hkind hended
  · intro hrpc number asked height found hanswered hheight hfound
    obtain ⟨pass, plan, stage, hash, hpursues, hnumber, hasked, hhash, hresets⟩ :=
      reset_of_answered hserved hheight hfound hanswered
    refine ⟨pass, plan, stage, hash, hpursues, hnumber, hasked, hhash, fun hfree hother =>
      ⟨?_, hresets hfree hother⟩⟩
    cases stage <;> rfl

/-- A block as it comes over RPC. -/
def minedAt (hash : String) (height : Nat) : Value :=
  .record [("hash", .text hash), ("number", .integer height), ("parentHash", .text "p"),
    ("timestamp", .integer 0)]

/-- The first pass gets no block at all, the second one that of another height, and the third one
the block of its signal, but another one than that it was derived from. -/
def muddled : List Move :=
  [.act (.record (l2At 1) (l1At "a" 10).toBlockId),
    .act (.setBlock 12 .null),
    .act (.call "first" (.signal (l1At "f" 12)) none),
    .advance,
    .act (.setBlock 12 (minedAt "f" 11)),
    .act (.call "second" (.signal (l1At "f" 12)) none),
    .advance,
    .act (.setBlock 12 (minedAt "f" 12)),
    .act (.setBlock 10 (minedAt "b" 10)),
    .act (.call "third" (.signal (l1At "f" 12)) none),
    .advance]

/-- The first pass of `muddled`. -/
def muddledPass : Pass := ⟨0, "first", .signal (l1At "f" 12), none⟩

/-- The failure of the first pass of `muddled`: there is nothing to read a hash from. -/
def muddledFailure : Failure where
  kind := .temporary
  message := "failed to check if on finalizing L1 chain, could not fetch block 12"
  cause? := some (.fault (.fieldOfNothing "null" "hash"))

/-- `answers_tagged` in `muddled`. The first pass ends with its failure and commits nothing, also
where a log is told of it: the log can write this failure. -/
theorem muddled_tagged :
    remote.Fresh ∧
    (Event.endings (remote.play muddled).2).map (fun e => match e.2 with
      | .judged outcome => some outcome.status
      | _ => none) = [some "temporary", some "temporary", some "reset"] ∧
    remote.Tagged (muddled.take 10) (remote.play (muddled.take 10)).1 ∧
    outspoken.Fresh ∧ outspoken.source = .rpc ∧
    .answered 0 12 (Lookup.verified 12 (.block .null))
      ∈ (outspoken.play (muddled.take 3)).1.advance.2 ∧
    .noted (.failed muddledFailure (l1At "f" 12).toBlockId)
      ∈ (outspoken.play (muddled.take 3)).1.advance.2 ∧
    .ended muddledPass (.judged (.failed muddledFailure))
      ∈ (outspoken.play (muddled.take 3)).1.advance.2 ∧
    ∀ later block,
      .committed 0 block ∉ (outspoken.play (muddled.take 3 ++ .advance :: later)).2 := by
  have hanswered : .answered 0 12 (Lookup.verified 12 (.block .null))
      ∈ (outspoken.play (muddled.take 3)).1.advance.2 := by
    have hlookups : Event.lookups 0 (outspoken.play (muddled.take 3)).1.advance.2
        = [.asked 0 12, .answered 0 12 (Lookup.verified 12 (.block .null))] := by rfl
    have hmem : .answered 0 12 (Lookup.verified 12 (.block .null))
        ∈ Event.lookups 0 (outspoken.play (muddled.take 3)).1.advance.2 := by
      rw [hlookups]
      exact List.mem_cons_of_mem _ (List.mem_singleton.mpr rfl)
    exact (List.mem_filter.mp hmem).1
  have hnull : ∀ found, Reply.block .null = .block found → ¬Lookup.Acceptable 12 found := by
    rintro found heq hfound
    obtain rfl := Reply.block.inj heq
    exact nomatch hfound.hash
  obtain ⟨pass, plan, stage, reason, hpursues, -, hasked, hfailure, -, hfails, hnever⟩ :=
    (answers_tagged fresh_outspoken (muddled.take 3)).temporary rfl 0 12 (.block .null) hanswered
      hnull
  -- the pass, its plan and the stage that it is at
  obtain ⟨flight, hf, -⟩ | ⟨-, hhead, hplan⟩ := hpursues
  · exact nomatch hf
  obtain rfl : muddledPass = pass := Option.some.inj hhead
  obtain rfl : (⟨l2At 1, (l1At "a" 10).toBlockId, l1At "f" 12, 0⟩ : Plan) = plan :=
    Option.some.inj ((show _ = some _ by rfl).symm.trans hplan)
  obtain rfl : Stage.signal = stage := by
    cases stage with
    | signal => rfl
    | provenance => exact absurd hasked (by decide)
  obtain rfl : Value.fault (.fieldOfNothing "null" "hash") = reason := Reply.failure.inj hfailure
  have hfailed : (Plan.unreached ⟨l2At 1, (l1At "a" 10).toBlockId, l1At "f" 12, 0⟩ .signal
      (.fault (.fieldOfNothing "null" "hash"))).failure = muddledFailure := by rfl
  rw [hfailed] at hfails
  refine ⟨fresh_remote, by rfl, answers_tagged fresh_remote _, fresh_outspoken, rfl, hanswered, ?_⟩
  rcases hfails with ⟨before, heq⟩ | ⟨before, threshold, fault, hlog, hlines, -⟩
  · have htold : muddledPass.endNotices (.judged (.failed muddledFailure))
        = [.failed muddledFailure (l1At "f" 12).toBlockId] := rfl
    rw [htold] at heq
    refine ⟨?_, ?_, hnever⟩ <;> rw [heq] <;> simp
  · obtain rfl := Option.some.inj hlog
    exact nomatch hlines

/-- The node fails with an error that no log can write. -/
def baffled : List Move :=
  [.act (.record (l2At 1) (l1At "a" 10).toBlockId),
    .act (.setOutage (some ⟨untold, false⟩)),
    .act (.call "first" (.signal (l1At "f" 12)) none)]

/-- `raised_cases` over RPC, where the log raises a fault when it is told of the failure. -/
theorem baffled_raised :
    outspoken.Fresh ∧ outspoken.source = .rpc ∧ (outspoken.play baffled).1.refusal? = none ∧
    .ended ⟨0, "first", .signal (l1At "f" 12), none⟩ (.raised (.fault .noText))
      ∈ (outspoken.play baffled).1.advance.2 := by
  have hended : Event.endings (outspoken.play baffled).1.advance.2
      = [(⟨0, "first", .signal (l1At "f" 12), none⟩, .raised (.fault .noText))] := by rfl
  refine ⟨fresh_outspoken, rfl, by rfl, ?_⟩
  rw [← Event.mem_endings, hended]
  exact List.mem_singleton.mpr rfl

end Session

end Settlement
