import Settlement.Proofs.Provenance.Steps
import Settlement.Proofs.Session.Lines
import Settlement.Proofs.Session.Vetted
import Settlement.Proofs.Throttle

/-!
# The log as a trace

What happened can be told from the log. Each kind of line stands for one kind of thing that
happens, and for each of these there is one line, in order: a commit, with what was verified for
it; a signal that is lower than the one known; a pass for a signal that fails; a boundary that is
let through; a derivation that changes a link; and a pass that a reset has overtaken.

## Key results

- `lines_move`: the lines of a move, from what came before it
- `commits_move`, `discards_move`: the passes that a move has a line about
- `log_faithful`: the lines of any log, kind by kind
-/

namespace Settlement

/-! ## Moments -/

/-- Each of some moves, with the moves before it. -/
def moments : List Move → List (List Move × Move)
  | [] => []
  | m :: moves => ([], m) :: (moments moves).map fun moment => (m :: moment.1, moment.2)

/-- `moments` of one more move end with that move. -/
theorem moments_concat (moves : List Move) (m : Move) :
    moments (moves ++ [m]) = moments moves ++ [(moves, m)] := by
  induction moves with
  | nil => rfl
  | cons first moves ih => simp [moments, ih]

/-- `play` has what can be read off its events move by move. -/
theorem Session.play_eq_moments {α : Type} {s : Session} {f : List Event → List α}
    {g : List Move × Move → List α} (hnil : f [] = [])
    (happend : ∀ xs ys, f (xs ++ ys) = f xs ++ f ys)
    (hmove : ∀ past m, f ((s.play past).1.move m).2 = g (past, m)) (moves : List Move) :
    f (s.play moves).2 = (moments moves).flatMap g := by
  induction moves using List.reverseRecOn with
  | nil => exact hnil
  | append_singleton moves m ih =>
    rw [play_concat, Progress.snd_after, happend, ih, hmove, moments_concat, List.flatMap_append,
      List.flatMap_singleton]

namespace Session

variable {s t : Session} {pass : Pass} {plan : Plan} {past : List Move} {m : Move}

/-! ## The lines of a move -/

/-- The line of what somebody records, unless it changes nothing: the newest link since the last
reset, as it is then. -/
def recording? (past : List Move) : Move → Option Notice
  | .act (.record l2 l1) =>
    match Change.of (Links.history (derivations past)).getLast? l2 l1,
      (Links.history (derivations past ++ [(l2, l1)])).getLast? with
    | .appended, some newest => some (.extended newest)
    | .updated, some newest => some (.updated newest)
    | _, _ => none
  | _ => none

/-- The signal of a pass that starts at a move, if it is lower than the one known. -/
def undercut? (s : Session) (m : Move) : Option Header :=
  match (s.starting? m).map Pass.trigger with
  | some (.signal block) => if block.number < s.tracker.signal.number then some block else none
  | _ => none

/-- The line of a signal that is lower than the one known. -/
def outdatedLine (s : Session) (block : Header) : Notice :=
  .outdated s.tracker.signal.toBlockId block.toBlockId

/-- The line of a boundary that is let through. -/
def processingLine (s : Session) (block : Header) : Notice :=
  .processing s.tracker.signal.toBlockId block.toBlockId s.tracker.lastTried

/-- `latest?` is the last one of `Links.history` since the last reset. -/
theorem newest_play (h : Fresh s) (moves : List Move) :
    (s.play moves).1.tracker.links.latest? = (Links.history (derivations moves)).getLast? := by
  have hholds := holds_play h.holds moves
  have hpos := Nat.zero_lt_of_lt hholds.wellFormed.start_lt
  rw [Ring.latest?_eq_getLast? hholds.wellFormed, hholds.toList_eq,
    Links.ofDerivations_eq_rtake hpos, Links.getLast?_rtake hpos]

/-- `record` changes what `Change.of` says of the newest link since the last reset. -/
theorem change_play (h : Fresh s) (past : List Move) (l2 : L2Block) (l1 : BlockId) :
    ((s.play past).1.tracker.record l2 l1).2
      = Change.of (Links.history (derivations past)).getLast? l2 l1 := by
  rw [← newest_play h past]
  exact Ring.snd_record ..

/-- `actionLines` are the line of what is recorded. -/
theorem actionLines_play (h : Fresh s) (past : List Move) (action : Action) :
    (s.play past).1.actionLines action = (recording? past (.act action)).toList := by
  cases action with
  | record l2 l1 =>
    have hafter := newest_play h (past ++ [.act (.record l2 l1)])
    rw [fst_play_concat, derivations_concat] at hafter
    -- the newest link after the record, by the history
    have hnewest : ((s.play past).1.tracker.record l2 l1).1.links.latest?
        = (Links.history (derivations past ++ [(l2, l1)])).getLast? := hafter
    simp only [actionLines, Tracker.recordNotices, recording?, change_play h, hnewest]
    cases Change.of (Links.history (derivations past)).getLast? l2 l1 <;>
      cases (Links.history (derivations past ++ [(l2, l1)])).getLast? <;> rfl
  | _ => rfl

/-- `openingLines` are the line of a lower signal, or that of a boundary let through. -/
theorem openingLines_eq (s : Session) (m : Move) :
    s.openingLines m = ((s.undercut? m).map s.outdatedLine).toList
      ++ ((s.letThrough? m).map s.processingLine).toList := by
  unfold openingLines undercut? letThrough?
  cases hstarting : s.starting? m with
  | none => rfl
  | some pass =>
    -- a pass has one line or none at its start
    cases htrigger : pass.trigger with
    | signal block =>
      by_cases hlt : block.number < s.tracker.signal.number
      · simp [Tracker.intakeNotices, Tracker.intake, htrigger, hlt, outdatedLine]
      · simp [Tracker.intakeNotices, Tracker.intake, htrigger, hlt]
    | boundary block =>
      by_cases hdue : (s.tracker.intake (.boundary block)).2 = .due
      · simp [Tracker.intakeNotices, htrigger, hdue, processingLine]
      · have hskipped : (s.tracker.intake (.boundary block)).2 = .skipped := by
          rw [Tracker.intake_boundary] at hdue ⊢
          split
          · rfl
          · rename_i hthrough
            rw [if_neg hthrough] at hdue
            exact absurd rfl hdue
        simp [Tracker.intakeNotices, htrigger, hskipped]

/-- `notices` of a move are the line of what is recorded, those of a pass that starts, and then the
`Closing` lines of the pass that has its turn. -/
theorem lines_move (h : Fresh s) (past : List Move) (m : Move) :
    ∃ closing, Event.notices ((s.play past).1.move m).2
        = (recording? past m).toList ++ (s.play past).1.openingLines m ++ closing ∧
      (s.play past).1.Closing closing (Event.endings ((s.play past).1.move m).2)
        (Event.commitments ((s.play past).1.move m).2) := by
  cases m with
  | act action =>
    -- an action has the line of its record, and no pass ends with it
    have hlines : Event.notices ((s.play past).1.act action).2
        = (recording? past (.act action)).toList ++ [] ++ [] := by
      rw [notices_act, actionLines_play h, List.append_nil, List.append_nil]
    refine ⟨[], hlines, ?_⟩
    show Closing _ [] (Event.endings ((s.play past).1.act action).2)
      (Event.commitments ((s.play past).1.act action).2)
    rw [endings_act, (acted _ action).commitments]
    exact .stays fun _ _ hmem => absurd hmem List.not_mem_nil
  | advance =>
    exact notices_advance (served_play h.flight past)

/-! ## The lines of a kind -/

/-- `recording?` lines are of the kind `linked`. -/
theorem kind_of_recording? {n : Notice} (h : n ∈ (recording? past m).toList) :
    n.kind = .linked := by
  unfold recording? at h
  split at h
  · split at h
    · exact List.mem_singleton.mp h ▸ rfl
    · exact List.mem_singleton.mp h ▸ rfl
    · exact absurd h List.not_mem_nil
  · exact absurd h List.not_mem_nil

/-- `lines` of a kind at a move are those of its three parts that are of that kind. -/
theorem lines_of_kind (h : Fresh s) (kind : LineKind) (past : List Move) (m : Move) :
    ∃ closing, (s.play past).1.Closing closing (Event.endings ((s.play past).1.move m).2)
        (Event.commitments ((s.play past).1.move m).2) ∧
      Event.lines kind ((s.play past).1.move m).2
        = (if LineKind.linked = kind then (recording? past m).toList else [])
          ++ ((if LineKind.outdated = kind
              then (((s.play past).1.undercut? m).map (s.play past).1.outdatedLine).toList else [])
            ++ if LineKind.processing = kind
              then (((s.play past).1.letThrough? m).map (s.play past).1.processingLine).toList
              else [])
          ++ closing.filter kind.tells := by
  obtain ⟨closing, hnotices, hclosing⟩ := lines_move h past m
  refine ⟨closing, hclosing, ?_⟩
  -- each of the three parts has lines of one kind
  rw [Event.lines, hnotices, openingLines_eq, List.filter_append, List.filter_append,
    List.filter_append, LineKind.filter_tells fun n => kind_of_recording?,
    LineKind.filter_tells fun n hmem => ?_, LineKind.filter_tells fun n hmem => ?_]
  · obtain ⟨block, -, rfl⟩ := Option.map_eq_some_iff.mp (Option.mem_toList.mp hmem)
    rfl
  · obtain ⟨block, -, rfl⟩ := Option.map_eq_some_iff.mp (Option.mem_toList.mp hmem)
    rfl

/-- The warning about a pass for a signal that failed. -/
def warning? : Pass × Ending → Option Notice
  | (pass, .judged (.failed failure)) =>
    match pass.trigger with
    | .signal block => some (.failed failure block.toBlockId)
    | .boundary _ => none
  | _ => none

/-- `endNotices` are the `warning?` about the pass, if there is one. -/
theorem endNotices_eq_warning? (pass : Pass) (ending : Ending) :
    pass.endNotices ending = (warning? (pass, ending)).toList := by
  obtain ⟨number, label, trigger, token?⟩ := pass
  cases trigger <;> rcases ending with _ | _ | (_ | _) | _ <;> rfl

/-- `endNotices` are of the kind `failed`. -/
theorem kind_of_endNotices {ending : Ending} {n : Notice} (h : n ∈ pass.endNotices ending) :
    n.kind = .failed := by
  rcases endNotices_cases pass ending with hsilent | ⟨block, failure, -, -, htold⟩
  · exact absurd (hsilent ▸ h) List.not_mem_nil
  · rw [htold] at h
    exact List.mem_singleton.mp h ▸ rfl

section

variable {closing : List Notice} {endings : List (Pass × Ending)}
  {commitments : List (Nat × L2Block)} {generation : Nat}

/-- `Closing` lines are of the kinds `failed`, `discarded` and `finalized` only. -/
theorem Closing.filter_eq_nil (h : t.Closing closing endings commitments) {kind : LineKind}
    (hkind : kind = .linked ∨ kind = .outdated ∨ kind = .processing) :
    closing.filter kind.tells = [] := by
  have hother : ∀ k : LineKind, k = .failed ∨ k = .discarded ∨ k = .finalized → k ≠ kind := by
    rintro k (rfl | rfl | rfl) <;> rcases hkind with rfl | rfl | rfl <;> nofun
  cases h with
  | stays => rfl
  | turns pursues tells =>
    cases tells with
    | silent => rfl
    | closes =>
      -- one case for each kind of closing line
      rw [LineKind.filter_tells fun n => kind_of_endNotices]
      exact if_neg (hother _ (.inl rfl))
    | discards =>
      rw [LineKind.filter_tells (k := .discarded) fun n hmem => List.mem_singleton.mp hmem ▸ rfl]
      exact if_neg (hother _ (.inr (.inl rfl)))
    | finalizes =>
      rw [LineKind.filter_tells (k := .finalized) fun n hmem => List.mem_singleton.mp hmem ▸ rfl]
      exact if_neg (hother _ (.inr (.inr rfl)))

/-- `Closing` lines of the kind `failed` are the warnings about the passes that end. -/
theorem Closing.failed (h : t.Closing closing endings commitments) :
    closing.filter LineKind.failed.tells = endings.filterMap warning? := by
  cases h with
  | stays ends =>
    -- whoever ends without a plan ends without a failure
    refine (List.filterMap_eq_nil_iff.mpr fun (pass, ending) hmem => ?_).symm
    obtain ⟨rfl | rfl | rfl, -⟩ := ends pass ending hmem <;> rfl
  | turns pursues tells =>
    cases tells with
    | @closes ending _ =>
      rw [LineKind.filter_tells fun n => kind_of_endNotices, if_pos rfl, endNotices_eq_warning?,
        List.filterMap_eq_flatMap_toList, List.flatMap_singleton]
    | _ => rfl

end

/-! ## The lines of a play -/

/-- `lines` of the kind `linked` are those of what is recorded, in order. -/
theorem lines_recorded (h : Fresh s) (moves : List Move) :
    Event.lines .linked (s.play moves).2
      = (moments moves).filterMap fun moment => recording? moment.1 moment.2 := by
  rw [List.filterMap_eq_flatMap_toList]
  refine play_eq_moments rfl (Event.lines_append _) (fun past m => ?_) moves
  obtain ⟨closing, hclosing, heq⟩ := lines_of_kind h .linked past m
  rw [heq, hclosing.filter_eq_nil (.inl rfl)]
  simp

/-- `lines` of the kind `outdated` are those of passes that start with a lower signal, in order. -/
theorem lines_outdated (h : Fresh s) (moves : List Move) :
    Event.lines .outdated (s.play moves).2 = (moments moves).filterMap fun moment =>
      ((s.play moment.1).1.undercut? moment.2).map (s.play moment.1).1.outdatedLine := by
  rw [List.filterMap_eq_flatMap_toList]
  refine play_eq_moments rfl (Event.lines_append _) (fun past m => ?_) moves
  obtain ⟨closing, hclosing, heq⟩ := lines_of_kind h .outdated past m
  rw [heq, hclosing.filter_eq_nil (.inr (.inl rfl))]
  simp

/-- `lines` of the kind `processing` are those of boundaries let through, in order. -/
theorem lines_processing (h : Fresh s) (moves : List Move) :
    Event.lines .processing (s.play moves).2 = (moments moves).filterMap fun moment =>
      ((s.play moment.1).1.letThrough? moment.2).map (s.play moment.1).1.processingLine := by
  rw [List.filterMap_eq_flatMap_toList]
  refine play_eq_moments rfl (Event.lines_append _) (fun past m => ?_) moves
  obtain ⟨closing, hclosing, heq⟩ := lines_of_kind h .processing past m
  rw [heq, hclosing.filter_eq_nil (.inr (.inr rfl))]
  simp

/-- `lines` of the kind `failed` are the warnings about the passes that end, in order. -/
theorem lines_failed (h : Fresh s) (moves : List Move) :
    Event.lines .failed (s.play moves).2 = (Event.endings (s.play moves).2).filterMap warning? := by
  induction moves using List.reverseRecOn with
  | nil => rfl
  | append_singleton moves m ih =>
    obtain ⟨closing, hclosing, heq⟩ := lines_of_kind h .failed moves m
    rw [play_concat, Progress.snd_after, Event.lines_append, Event.endings_append,
      List.filterMap_append, ih, heq, hclosing.failed]
    rfl

/-- The line of a commit. -/
def finalizedLine (plan : Plan) : Notice :=
  .finalized plan.candidate.toBlockId plan.derivedFrom plan.signal.toBlockId

/-- `commitments` of a move are of passes that were `Vetted`, and each has its line. -/
theorem commits_move (h : Fresh s) (past : List Move) (m : Move) :
    ∃ commits : List (Pass × Plan),
      Event.commitments ((s.play past).1.move m).2
        = commits.map (fun commit => (commit.1.number, commit.2.candidate)) ∧
      Event.lines .finalized ((s.play past).1.move m).2
        = commits.map (fun commit => finalizedLine commit.2) ∧
      ∀ pass plan, (pass, plan) ∈ commits → m = .advance ∧ ∃ before during,
        past = before ++ during ∧ Vetted s before during pass plan (.judged .ok) := by
  obtain ⟨closing, hclosing, heq⟩ := lines_of_kind h .finalized past m
  rw [heq]
  generalize hends : Event.endings ((s.play past).1.move m).2 = endings at hclosing
  generalize Event.commitments ((s.play past).1.move m).2 = commitments at hclosing
  have hnobody : ∀ pass plan, (pass, plan) ∈ ([] : List (Pass × Plan)) → m = .advance ∧
      ∃ before during, past = before ++ during ∧ Vetted s before during pass plan (.judged .ok) :=
    fun _ _ hmem => absurd hmem List.not_mem_nil
  cases hclosing with
  | stays ends => exact ⟨[], rfl, rfl, hnobody⟩
  | @turns pass plan _ _ _ pursues tells =>
    -- of the three closing lines only one is about a commit
    cases tells with
    | silent => exact ⟨[], rfl, rfl, hnobody⟩
    | @closes ending current =>
      refine ⟨[], rfl, ?_, hnobody⟩
      rw [LineKind.filter_tells fun n => kind_of_endNotices]
      rfl
    | discards overtaken => exact ⟨[], rfl, rfl, hnobody⟩
    | finalizes current =>
      refine ⟨[(pass, plan)], rfl, rfl, fun other plan' hmem => ?_⟩
      obtain ⟨rfl, rfl⟩ := Prod.mk.inj (List.mem_singleton.mp hmem)
      exact exists_vetted h pursues hends

/-- The line of a pass that a reset has overtaken. -/
def discardedLine (plan : Plan) : Notice := .discarded plan.candidate.toBlockId

/-- A pass ends at a move and has passed both checks, but a reset has overtaken it. -/
def Overtaken (s : Session) (past : List Move) (m : Move) (pass : Pass) (plan : Plan) : Prop :=
  m = .advance ∧ ∃ before during ending, past = before ++ during ∧
    Vetted s before during pass plan ending ∧ during.any Move.isReset = true

/-- `Overtaken` passes have their turn, end well and come too late. -/
theorem Overtaken.turn (h : Overtaken s past m pass plan) :
    (s.play past).1.Pursues pass plan ∧
    (pass, .judged .ok) ∈ Event.endings ((s.play past).1.move m).2 ∧
    (s.play past).1.tracker.generation ≠ plan.generation := by
  obtain ⟨rfl, before, during, ending, rfl, hvetted, hreset⟩ := h
  obtain rfl := hvetted.ending_eq hreset
  exact ⟨hvetted.pursues, hvetted.mem_endings, hvetted.overtaken_iff.mpr hreset⟩

/-- `lines` of the kind `discarded` at a move are those of the passes that are `Overtaken`. -/
theorem discards_move (h : Fresh s) (past : List Move) (m : Move) :
    ∃ passes : List (Pass × Plan),
      Event.lines .discarded ((s.play past).1.move m).2
        = passes.map (fun pass => discardedLine pass.2) ∧
      (passes.map Prod.fst).Sublist ((Event.endings ((s.play past).1.move m).2).map Prod.fst) ∧
      passes.Nodup ∧
      ∀ pass plan, (pass, plan) ∈ passes ↔ Overtaken s past m pass plan := by
  obtain ⟨closing, hclosing, heq⟩ := lines_of_kind h .discarded past m
  rw [heq]
  have hturn : ∀ pass plan, Overtaken s past m pass plan → _ := fun _ _ hover => hover.turn
  generalize hends : Event.endings ((s.play past).1.move m).2 = endings at hclosing hturn ⊢
  generalize Event.commitments ((s.play past).1.move m).2 = commitments at hclosing
  have hnobody : (∀ pass plan, ¬Overtaken s past m pass plan) → ∀ pass plan,
      (pass, plan) ∈ ([] : List (Pass × Plan)) ↔ Overtaken s past m pass plan :=
    fun hnone pass plan => iff_of_false List.not_mem_nil (hnone pass plan)
  cases hclosing with
  | stays ends =>
    refine ⟨[], rfl, List.nil_sublist _, List.nodup_nil, hnobody fun pass plan hover => ?_⟩
    obtain ⟨hpursues, hmem, -⟩ := hturn pass plan hover
    exact (ends _ _ hmem).2 plan hpursues
  | @turns pass plan _ _ _ pursues tells =>
    -- whoever is overtaken ends well and commits nothing
    cases tells with
    | silent =>
      exact ⟨[], rfl, List.nil_sublist _, List.nodup_nil, hnobody fun _ _ hover =>
        List.not_mem_nil (hturn _ _ hover).2.1⟩
    | @closes ending current =>
      refine ⟨[], ?_, List.nil_sublist _, List.nodup_nil, hnobody fun _ _ hover => ?_⟩
      · rw [LineKind.filter_tells fun n => kind_of_endNotices]
        rfl
      · obtain ⟨hpursues, hmem, hlate⟩ := hturn _ _ hover
        obtain ⟨-, rfl⟩ := pursues.unique hpursues
        obtain ⟨-, hok⟩ := Prod.mk.inj (List.mem_singleton.mp hmem)
        exact hlate (current hok.symm)
    | discards overtaken =>
      refine ⟨[(pass, plan)], rfl, List.Sublist.refl _, List.nodup_singleton _,
        fun other plan' => ⟨fun hmem => ?_, fun hover => ?_⟩⟩
      · obtain ⟨rfl, rfl⟩ := Prod.mk.inj (List.mem_singleton.mp hmem)
        obtain ⟨hadvance, before, during, rfl, hvetted⟩ := exists_vetted h pursues hends
        exact ⟨hadvance, before, during, _, rfl, hvetted, hvetted.overtaken_iff.mp overtaken⟩
      · obtain ⟨rfl, rfl⟩ := pursues.unique (hturn _ _ hover).1
        exact List.mem_singleton.mpr rfl
    | finalizes current =>
      refine ⟨[], rfl, List.nil_sublist _, List.nodup_nil, hnobody fun _ _ hover => ?_⟩
      -- only one pass has its turn, and this one is not too late
      obtain ⟨hpursues, -, hlate⟩ := hturn _ _ hover
      obtain ⟨-, rfl⟩ := pursues.unique hpursues
      exact hlate current

/-- `lines` of the kind `finalized` are those of the commits, in order, each of a pass that was
`Vetted`. -/
theorem lines_finalized (h : Fresh s) (moves : List Move) :
    ∃ commits : List (Pass × Plan),
      Event.commitments (s.play moves).2
        = commits.map (fun commit => (commit.1.number, commit.2.candidate)) ∧
      Event.lines .finalized (s.play moves).2
        = commits.map (fun commit => finalizedLine commit.2) ∧
      ∀ pass plan, (pass, plan) ∈ commits → ∃ before during after,
        moves = before ++ during ++ .advance :: after ∧
          Vetted s before during pass plan (.judged .ok) := by
  -- over the moves, each of which adds its commits and their lines
  induction moves using List.reverseRecOn with
  | nil => exact ⟨[], rfl, rfl, fun _ _ hmem => absurd hmem List.not_mem_nil⟩
  | append_singleton moves m ih =>
    obtain ⟨commits, hcommitments, hlines, hvetted⟩ := ih
    obtain ⟨new, hcommitments', hlines', hvetted'⟩ := commits_move h moves m
    rw [play_concat, Progress.snd_after]
    refine ⟨commits ++ new, ?_, ?_, fun pass plan hmem => ?_⟩
    · rw [Event.commitments_append, hcommitments, hcommitments', List.map_append]
    · rw [Event.lines_append, hlines, hlines', List.map_append]
    -- a pass of an earlier move, or of the last one
    · rcases List.mem_append.mp hmem with hmem | hmem
      · obtain ⟨before, during, after, rfl, hpass⟩ := hvetted pass plan hmem
        exact ⟨before, during, after ++ [m], by simp, hpass⟩
      · obtain ⟨rfl, before, during, rfl, hpass⟩ := hvetted' pass plan hmem
        exact ⟨before, during, [], rfl, hpass⟩

/-- `lines` of the kind `discarded` are those of the passes that were `Vetted` and then overtaken by
a reset. -/
theorem lines_discarded (h : Fresh s) (moves : List Move) :
    ∃ passes : List (Pass × Plan),
      Event.lines .discarded (s.play moves).2 = passes.map (fun pass => discardedLine pass.2) ∧
      (passes.map Prod.fst).Sublist ((Event.endings (s.play moves).2).map Prod.fst) ∧
      passes.Nodup ∧
      ∀ pass plan, (pass, plan) ∈ passes ↔ ∃ before during after ending,
        moves = before ++ during ++ .advance :: after ∧
          Vetted s before during pass plan ending ∧ during.any Move.isReset = true := by
  induction moves using List.reverseRecOn with
  | nil =>
    exact ⟨[], rfl, List.nil_sublist _, List.nodup_nil, fun pass plan =>
      iff_of_false List.not_mem_nil (by simp)⟩
  | append_singleton moves m ih =>
    obtain ⟨passes, hlines, horder, hnodup, hmem⟩ := ih
    obtain ⟨new, hlines', horder', hnodup', hmem'⟩ := discards_move h moves m
    rw [play_concat, Progress.snd_after]
    refine ⟨passes ++ new, ?_, ?_, ?_, fun pass plan => ?_⟩
    · rw [Event.lines_append, hlines, hlines', List.map_append]
    · rw [Event.endings_append, List.map_append, List.map_append]
      exact horder.append horder'
    · refine List.nodup_append'.mpr ⟨hnodup, hnodup', fun (pass, plan) hold hnew => ?_⟩
      -- whoever has ended does not have its turn again
      obtain ⟨⟨pass', ending⟩, hends, rfl⟩ :=
        List.mem_map.mp (horder.subset (List.mem_map_of_mem hold))
      exact not_pursues_of_ended h (Event.mem_endings.mp hends) ((hmem' _ _).mp hnew).turn.1
    · rw [List.mem_append, hmem, hmem']
      constructor
      · rintro (⟨before, during, after, ending, rfl, hpass⟩ |
          ⟨rfl, before, during, ending, rfl, hpass⟩)
        · exact ⟨before, during, after ++ [m], ending, by simp, hpass⟩
        · exact ⟨before, during, [], ending, rfl, hpass⟩
      · rintro ⟨before, during, after, ending, heq, hpass⟩
        -- the pass has ended at the last move or before it
        rcases List.eq_nil_or_concat after with rfl | ⟨earlier, last, rfl⟩
        · obtain ⟨rfl, hlast⟩ := List.append_inj' heq rfl
          exact .inr ⟨List.singleton_inj.mp hlast, before, during, ending, rfl, hpass⟩
        · rw [List.concat_eq_append, ← List.cons_append, ← List.append_assoc] at heq
          exact .inl ⟨before, during, earlier, ending, (List.append_inj' heq rfl).1, hpass⟩

/-- `recording?` is a line about the newest link, unless `record` changes nothing. -/
theorem recording?_eq (h : Fresh s) (past : List Move) (l2 : L2Block) (l1 : BlockId) :
    ∃ newest, (s.play (past ++ [.act (.record l2 l1)])).1.tracker.links.latest? = some newest ∧
      recording? past (.act (.record l2 l1)) =
        match ((s.play past).1.tracker.record l2 l1).2 with
        | .appended => some (.extended newest)
        | .updated => some (.updated newest)
        | .unchanged => none := by
  obtain ⟨newest, hnewest, -⟩ := Links.newest_history_concat (derivations past) (l2, l1)
  have hafter := newest_play h (past ++ [.act (.record l2 l1)])
  rw [derivations_concat] at hafter
  refine ⟨newest, hafter.trans hnewest, ?_⟩
  rw [change_play h, recording?, hnewest]
  cases Change.of (Links.history (derivations past)).getLast? l2 l1 <;> rfl

/-! ## The fields of lines -/

/-- The fields of the lines of a kind. -/
def fields (kind : LineKind) (events : List Event) : List (List (String × Detail)) :=
  (Event.lines kind events).map Notice.details

/-- The fields of the warning about a pass for a signal that failed. -/
def warningFields? : Pass × Ending → Option (List (String × Detail))
  | (pass, .judged (.failed failure)) =>
    match pass.trigger with
    | .signal block => some [("err", .failure failure), ("kind", .text failure.kind.word),
        ("l1Finalized", .text block.text)]
    | .boundary _ => none
  | _ => none

/-- `details` of a `warning?` are `warningFields?`. -/
theorem details_warning? (ended : Pass × Ending) :
    (warning? ended).map Notice.details = warningFields? ended := by
  obtain ⟨⟨number, label, trigger, token?⟩, ending⟩ := ended
  cases trigger <;> rcases ending with _ | _ | (_ | _) | _ <;> rfl

/-- `fields` of the kind `failed` are those of the passes that end with a failure. -/
theorem fields_failed (h : Fresh s) (moves : List Move) :
    fields .failed (s.play moves).2
      = (Event.endings (s.play moves).2).filterMap warningFields? := by
  rw [fields, lines_failed h, List.map_filterMap]
  simp only [details_warning?]

/-- `fields` of the kind `outdated` name the signal known and the lower one. -/
theorem fields_outdated (h : Fresh s) (moves : List Move) :
    fields .outdated (s.play moves).2 = (moments moves).filterMap fun moment =>
      ((s.play moment.1).1.undercut? moment.2).map fun block =>
        [("prevFinalizedL1", .text (s.play moment.1).1.tracker.signal.text),
          ("signaledFinalizedL1", .text block.text)] := by
  rw [fields, lines_outdated h, List.map_filterMap]
  simp only [Option.map_map]
  rfl

/-- `fields` of the kind `processing` carry what the throttle remembered before. -/
theorem fields_processing (h : Fresh s) (moves : List Move) :
    fields .processing (s.play moves).2 = (moments moves).filterMap fun moment =>
      ((s.play moment.1).1.letThrough? moment.2).map fun block =>
        [("l1Finalized", .text (s.play moment.1).1.tracker.signal.text),
          ("derivedFrom", .text block.text),
          ("previous", .number (s.play moment.1).1.tracker.lastTried)] := by
  rw [fields, lines_processing h, List.map_filterMap]
  simp only [Option.map_map]
  rfl

/-- The lines of the log, kind by kind, for what has happened in a play. -/
structure Faithful (s : Session) (moves : List Move) : Prop where
  /-- Every commit has a line of its own, in order. A pass has looked up both L1 blocks that the
  line names, and the signal is the one known at the commit. -/
  finalized : ∃ commits : List (Pass × Plan),
    Event.commitments (s.play moves).2
      = commits.map (fun commit => (commit.1.number, commit.2.candidate)) ∧
    Event.lines .finalized (s.play moves).2 = commits.map (fun commit => finalizedLine commit.2) ∧
    fields .finalized (s.play moves).2 = commits.map (fun commit =>
      [("l2Finalized", .text commit.2.candidate.text),
        ("l1DerivedFrom", .text commit.2.derivedFrom.text),
        ("l1Finalized", .text commit.2.signal.text)]) ∧
    ∀ pass plan, (pass, plan) ∈ commits → ∃ before during after,
      moves = before ++ during ++ .advance :: after ∧
        Vetted s before during pass plan (.judged .ok) ∧
        Event.lookups pass.number ((s.play before).1.play (during ++ [.advance])).2
          = plan.inquiry s.source pass.number .signal
            ((s.play before).1.attempts pass (during ++ [.advance])) ∧
        (s.play (before ++ during ++ [.advance])).1.tracker.signal = plan.signal
  /-- Every pass that starts with a signal lower than the one known has a line, in order. -/
  outdated : Event.lines .outdated (s.play moves).2 = (moments moves).filterMap fun moment =>
    ((s.play moment.1).1.undercut? moment.2).map (s.play moment.1).1.outdatedLine
  /-- The line names the signal known and the lower one. -/
  outdated_fields : fields .outdated (s.play moves).2 = (moments moves).filterMap fun moment =>
    ((s.play moment.1).1.undercut? moment.2).map fun block =>
      [("prevFinalizedL1", .text (s.play moment.1).1.tracker.signal.text),
        ("signaledFinalizedL1", .text block.text)]
  /-- Every pass for a signal that ends with a failure has a line, and no pass for a boundary. -/
  failed :
    Event.lines .failed (s.play moves).2 = (Event.endings (s.play moves).2).filterMap warning?
  /-- The line carries the failure, its kind and the signal (`warningFields?`). -/
  failed_fields : fields .failed (s.play moves).2
    = (Event.endings (s.play moves).2).filterMap warningFields?
  /-- Every pass that starts with a boundary and is let through has a line. -/
  processing : Event.lines .processing (s.play moves).2 = (moments moves).filterMap fun moment =>
    ((s.play moment.1).1.letThrough? moment.2).map (s.play moment.1).1.processingLine
  /-- The line carries the boundary of the pass that was let through before, as it is remembered. -/
  processing_fields : fields .processing (s.play moves).2 = (moments moves).filterMap fun moment =>
    ((s.play moment.1).1.letThrough? moment.2).map fun block =>
      [("l1Finalized", .text (s.play moment.1).1.tracker.signal.text),
        ("derivedFrom", .text block.text),
        ("previous", .number (s.play moment.1).1.tracker.lastTried)]
  /-- Every pass that has passed both checks and was overtaken by a reset has a line. -/
  discarded : ∃ passes : List (Pass × Plan),
    Event.lines .discarded (s.play moves).2 = passes.map (fun pass => discardedLine pass.2) ∧
    fields .discarded (s.play moves).2
      = passes.map (fun pass => [("candidate", .text pass.2.candidate.text)]) ∧
    (passes.map Prod.fst).Sublist ((Event.endings (s.play moves).2).map Prod.fst) ∧
    passes.Nodup ∧
    ∀ pass plan, (pass, plan) ∈ passes ↔ ∃ before during after ending,
      moves = before ++ during ++ .advance :: after ∧
        Vetted s before during pass plan ending ∧ during.any Move.isReset = true
  /-- Every derivation that changes a link has a line. -/
  recorded : Event.lines .linked (s.play moves).2
    = (moments moves).filterMap fun moment => recording? moment.1 moment.2
  /-- The line of a derivation names the newest link as it is then. -/
  newest : ∀ past l2 l1 future, moves = past ++ .act (.record l2 l1) :: future → ∃ newest,
    (s.play (past ++ [.act (.record l2 l1)])).1.tracker.links.latest? = some newest ∧
      (recording? past (.act (.record l2 l1)) =
        match ((s.play past).1.tracker.record l2 l1).2 with
        | .appended => some (.extended newest)
        | .updated => some (.updated newest)
        | .unchanged => none) ∧
      (recording? past (.act (.record l2 l1))).map Notice.details =
        if ((s.play past).1.tracker.record l2 l1).2 = .unchanged then none
        else some [("lastL1", .text newest.l1.text), ("lastL2", .text newest.l2.text)]

/-- `Faithful` holds of every play of a `Fresh` session: what has happened can be told from the
log. -/
theorem log_faithful (h : Fresh s) (moves : List Move) : Faithful s moves := by
  obtain ⟨commits, hcommitments, hlines, hvetted⟩ := lines_finalized h moves
  obtain ⟨passes, hdiscarded, hpasses⟩ := lines_discarded h moves
  refine
    { finalized := ⟨commits, hcommitments, hlines, ?_, fun pass plan hmem => ?_⟩
      outdated := lines_outdated h moves
      outdated_fields := fields_outdated h moves
      failed := lines_failed h moves
      failed_fields := fields_failed h moves
      processing := lines_processing h moves
      processing_fields := fields_processing h moves
      discarded := ⟨passes, hdiscarded, ?_, hpasses⟩
      recorded := lines_recorded h moves
      newest := fun past l2 l1 _ _ => ?_ }
  -- the fields of commits
  · rw [fields, hlines, List.map_map]
    rfl
  -- what was looked up for them
  · obtain ⟨before, during, after, hmoves, hpass⟩ := hvetted pass plan hmem
    exact ⟨before, during, after, hmoves, hpass, hpass.lookups, hpass.signal_eq⟩
  -- the fields of passes that were overtaken
  · rw [fields, hdiscarded, List.map_map]
    rfl
  -- the line of a record, by its change
  · obtain ⟨newest, hnewest, hline⟩ := recording?_eq h past l2 l1
    refine ⟨newest, hnewest, hline, ?_⟩
    rw [hline]
    cases ((s.play past).1.tracker.record l2 l1).2 <;> rfl

/-- Everything happens that there is a line for: a derivation that is recorded twice, a pass that a
reset overtakes, a boundary that ends in a commit, and two signals, one of them lower and one of
them of a block that L1 does not have. -/
def eventful : List Move :=
  [.act (.record (l2At 1) (l1At "a" 10).toBlockId),
    .act (.record (l2At 1) (l1At "a" 10).toBlockId),
    .act (.setBlock 10 (l1At "a" 10).toValue),
    .act (.setBlock 12 (l1At "f" 12).toValue),
    .act (.hold true),
    .act (.call "first" (.signal (l1At "f" 12)) none),
    .advance,
    .act .reset,
    .act (.record (l2At 2) (l1At "a" 10).toBlockId),
    .act (.release none),
    .advance,
    .act (.release none),
    .advance,
    .act (.hold false),
    .act (.call "second" (.boundary (l1At "b" 11)) none),
    .advance,
    .act (.record (l2At 3) (l1At "a" 10).toBlockId),
    .act (.call "third" (.signal (l1At "e" 5)) none),
    .act (.call "fourth" (.signal (l1At "g" 13)) none),
    .advance,
    .advance]

/-- `log_faithful` in `eventful`. -/
theorem eventful_faithful :
    small.Fresh ∧ Faithful small eventful ∧
    (Event.notices (small.play eventful).2).map Notice.kind
      = [.linked, .linked, .discarded, .processing, .finalized, .linked, .outdated, .failed] ∧
    Event.lines .finalized (small.play eventful).2
      = [.finalized (l2At 2).toBlockId (l1At "a" 10).toBlockId (l1At "f" 12).toBlockId] ∧
    fields .processing (small.play eventful).2
      = [[("l1Finalized", .text (l1At "f" 12).text), ("derivedFrom", .text (l1At "b" 11).text),
        ("previous", .number 0)]] ∧
    (fields .failed (small.play eventful).2).map (·.map Prod.fst)
      = [["err", "kind", "l1Finalized"]] :=
  ⟨fresh_small, log_faithful fresh_small eventful, by rfl, by rfl, by rfl, by rfl⟩

end Session

end Settlement
