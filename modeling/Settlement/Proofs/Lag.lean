import Settlement.Proofs.Head
import Settlement.Proofs.Provenance.Lookback
import Settlement.Proofs.Session.Unheld

/-!
# Lag

A smaller lookback only lets finality lag. Two sessions to which the same is done, and which differ
in their lookbacks alone, run abreast: they go on to differ in their links and in the engine at
most. Under the smaller lookback the links are the end of the links under the greater one. What a
pass finds to finalize there it finds under the greater lookback too, unless the head is that far
already; so the head under the smaller lookback never gets ahead.

This is for sessions in which no lookup waits. Otherwise a pass with nothing to finalize would let
others overtake it.

## Key results

- `plan?_of_isSuffix`: a plan under a smaller lookback
- `abreast_play`: two sessions run abreast
- `lookback_lag`: the two sessions after every step
-/

namespace Settlement

/-! ## Plans under a smaller lookback -/

namespace Tracker

variable {t u : Tracker}

/-- `reached?` is the same in a longer row with this end. -/
theorem reached?_of_isSuffix (h : t.links.toList <:+ u.links.toList) (hsignal : t.signal = u.signal)
    {link : Link} (hlink : t.reached? = some link) : u.reached? = some link := by
  unfold reached? at hlink ⊢
  rw [hsignal] at hlink
  obtain ⟨older, holder⟩ := h.filter fun link : Link => link.l1.number ≤ u.signal.number
  rw [← holder, List.getLast?_append, hlink]
  rfl

/-- `plan?` under a smaller lookback is `plan?` under a greater one, unless the head is not below
it. -/
theorem plan?_of_isSuffix (h : t.links.toList <:+ u.links.toList) (hsignal : t.signal = u.signal)
    (hgeneration : t.generation = u.generation)
    (hascending : u.links.toList.Pairwise (·.l2.number < ·.l2.number)) {head : L2Block}
    {plan : Plan} (hplan : t.plan? head = some plan) (other : L2Block) :
    u.plan? other = if other.number < plan.candidate.number then some plan else none := by
  -- with ascending links the candidate is the newest link that is final
  rw [plan?_eq_of_ascending (hascending.sublist h.sublist)] at hplan
  obtain ⟨link, hlink, rfl⟩ := Option.map_eq_some_iff.mp hplan
  -- which is the same link in the longer row
  have hreached := reached?_of_isSuffix h hsignal (Option.eq_some_of_filter_eq_some hlink)
  have hsame : u.planTo link = t.planTo link := by
    unfold planTo
    rw [hsignal, hgeneration]
  rw [plan?_eq_of_ascending hascending, hreached, Option.filter_some]
  -- it is planned for there too, unless the head is that far
  by_cases hlt : other.number < link.l2.number
  · have hlt' : other.number < (t.planTo link).candidate.number := hlt
    simp [hlt, hlt', hsame]
  · have hlt' : ¬other.number < (t.planTo link).candidate.number := hlt
    simp [hlt, hlt']

end Tracker

/-! ## Derivations -/

/-- Between two resets the L2 heights recorded ascend. -/
def Ascending (moves : List Move) : Prop :=
  ∀ past, past <+: moves → (derivations past).Pairwise (·.1.number < ·.1.number)

/-- `derivations` depend on the actions only. -/
theorem derivations_actions (moves : List Move) :
    derivations ((moves.filterMap Move.action?).map .act) = derivations moves := by
  -- over the moves, of which only actions count
  induction moves using List.reverseRecOn with
  | nil => rfl
  | append_singleton moves m ih =>
    rw [derivations_concat, ← ih]
    cases m with
    | act action =>
      have haction : [Move.act action].filterMap Move.action? = [action] := rfl
      rw [List.filterMap_append, haction, List.map_append]
      exact derivations_concat _ (.act action)
    | advance =>
      have hnone : [Move.advance].filterMap Move.action? = [] := rfl
      rw [List.filterMap_append, hnone, List.append_nil]
      rfl

namespace Session

variable {s t : Session} {moves : List Move}

/-! ## Two sessions abreast -/

/-- The session without its links and its engine. -/
def apart (s : Session) : Session :=
  { s with
    tracker := { s.tracker with links := .empty 0 }
    engine := {} }

/-- `intake` commutes with `apart`. -/
theorem intake_apart (s : Session) (trigger : Trigger) :
    s.apart.tracker.intake trigger =
      ({ (s.tracker.intake trigger).1 with links := .empty 0 }, (s.tracker.intake trigger).2) :=
  Tracker.intake_with_links ..

/-- `took` commutes with `apart`. -/
theorem apart_took (s : Session) (pass : Pass) : (s.took pass).apart = s.apart.took pass := by
  show _ = { s.apart with tracker := (s.apart.tracker.intake pass.trigger).1 }
  rw [intake_apart]
  rfl

/-- `cancel` commutes with `apart`. -/
theorem apart_cancel (s : Session) (token : String) (reason : Value) :
    (s.cancel token reason).1.apart = (s.apart.cancel token reason).1.apart := by
  unfold cancel
  -- whether the token was cancelled does not depend on the links
  by_cases hcancelled : (s.cancelled.lookup token).isSome
  · have hcancelled' : (s.apart.cancelled.lookup token).isSome := hcancelled
    rw [if_pos hcancelled, if_pos hcancelled']
    rfl
  · have hcancelled' : ¬(s.apart.cancelled.lookup token).isSome := hcancelled
    rw [if_neg hcancelled, if_neg hcancelled']
    rfl

/-- `release` changes the node only where no pass is in flight. -/
theorem release_of_landed (h : s.flight? = none) (reason? : Option Value) (ticket? : Option Nat) :
    s.release reason? ticket? = { s with
      node := match s.node.release? reason? ticket? with
        | some (_, _, node) => node
        | none => s.node } := by
  unfold release
  cases s.node.release? reason? ticket? with
  | none => rfl
  | some released => simp only [deliver, h]

/-- `release` commutes with `apart` where no pass is in flight. -/
theorem apart_release (h : s.flight? = none) (reason? : Option Value) (ticket? : Option Nat) :
    (s.release reason? ticket?).apart = (s.apart.release reason? ticket?).apart := by
  have h' : s.apart.flight? = none := h
  rw [release_of_landed h, release_of_landed h']
  rfl

/-- `act` commutes with `apart` where no pass is in flight. -/
theorem apart_act (h : s.flight? = none) (action : Action) :
    (s.act action).1.apart = (s.apart.act action).1.apart := by
  cases action with
  | cancel token reason => exact apart_cancel s token reason
  | release reason? ticket? => exact apart_release h reason? ticket?
  | _ => rfl

/-- The sessions are the same `apart` from links and engines, and the first is not ahead. -/
structure Abreast (s t : Session) : Prop where
  apart : s.apart = t.apart
  unheld : Unheld s
  behind : ¬t.engine.head.number < s.engine.head.number

/-- The links of the first session are the end of those of the second, along which L2 heights
ascend. -/
structure Shorter (s t : Session) : Prop where
  isSuffix : s.tracker.links.toList <:+ t.tracker.links.toList
  ascending : t.tracker.links.toList.Pairwise (·.l2.number < ·.l2.number)

/-- `Abreast` makes the second session `Unheld` too. -/
theorem Abreast.unheld_right (h : Abreast s t) : Unheld t := by
  have happart : Unheld s.apart := ⟨h.unheld.flight, h.unheld.holding⟩
  rw [h.apart] at happart
  exact ⟨happart.flight, happart.holding⟩

/-- `act` preserves `Abreast`. -/
theorem Abreast.act (h : Abreast s t) {action : Action} (haction : action ≠ .hold true) :
    Abreast (s.act action).1 (t.act action).1 := by
  refine ⟨?_, h.unheld.act haction, ?_⟩
  · rw [apart_act h.unheld.flight, apart_act h.unheld_right.flight, h.apart]
  · rw [engine_act, engine_act]
    cases action with
    | move block => exact Number.lt_irrefl _
    | _ => exact h.behind

/-- `planFor?` in the first session is that in the second, unless the head is not below it. -/
theorem Abreast.planFor?_eq (h : Abreast s t) (hlinks : Shorter s t) {pass : Pass} {plan : Plan}
    (hplan : s.planFor? pass = some plan) :
    t.planFor? pass = if t.engine.head.number < plan.candidate.number then some plan else none := by
  -- both take in the trigger alike, since it does not depend on the links
  have htook : (s.took pass).apart = (t.took pass).apart := by
    rw [apart_took, apart_took, h.apart]
  have hintake : (s.tracker.intake pass.trigger).2 = (t.tracker.intake pass.trigger).2 := by
    have heq : (s.apart.tracker.intake pass.trigger).2
        = (t.apart.tracker.intake pass.trigger).2 := by
      rw [h.apart]
    simpa only [intake_apart] using heq
  have hsignal : (s.took pass).tracker.signal = (t.took pass).tracker.signal := by
    show (s.took pass).apart.tracker.signal = (t.took pass).apart.tracker.signal
    rw [htook]
  have hgeneration : (s.took pass).tracker.generation = (t.took pass).tracker.generation := by
    show (s.took pass).apart.tracker.generation = (t.took pass).apart.tracker.generation
    rw [htook]
  unfold planFor? at hplan ⊢
  rw [hintake] at hplan
  -- and so both are due, or neither is
  by_cases hdue : (t.tracker.intake pass.trigger).2 = .due
  · rw [if_pos hdue] at hplan ⊢
    refine Tracker.plan?_of_isSuffix ?_ hsignal hgeneration ?_ hplan t.engine.head
    · rw [links_took, links_took]
      exact hlinks.isSuffix
    · rw [links_took]
      exact hlinks.ascending
  · rw [if_neg hdue] at hplan
    exact nomatch hplan

/-- `start` preserves `Abreast`. -/
theorem Abreast.start (h : Abreast s t) (hlinks : Shorter s t) (pass : Pass) :
    Abreast (s.start pass).1 (t.start pass).1 := by
  have hcarries : s.carriesOut pass = t.carriesOut pass := by
    show s.apart.carriesOut pass = t.apart.carriesOut pass
    rw [h.apart]
  have hplan : ∀ plan, t.planFor? pass = some plan →
      t.engine.head.number < plan.candidate.number := by
    intro plan hplan
    unfold planFor? at hplan
    split at hplan
    · exact (Tracker.plan?_eq_some hplan).2.2.2.2
    · exact nomatch hplan
  rw [start_of_unheld h.unheld.flight h.unheld.holding,
    start_of_unheld h.unheld_right.flight h.unheld_right.holding]
  refine ⟨?_, ⟨h.unheld.flight, h.unheld.holding⟩, ?_⟩
  · show (s.took pass).apart = (t.took pass).apart
    rw [apart_took, apart_took, h.apart]
  · rw [hcarries]
    dsimp only
    cases hs : (s.planFor? pass).filter (t.carriesOut pass) with
    | none =>
      cases ht : (t.planFor? pass).filter (t.carriesOut pass) with
      -- neither pass commits
      | none => exact h.behind
      | some plan =>
        intro hlt
        have hhigher := hplan plan (Option.eq_some_of_filter_eq_some ht)
        exact h.behind (Number.lt_trans hhigher hlt)
    | some plan =>
      have hsome := Option.eq_some_of_filter_eq_some hs
      rw [hsome, Option.filter_some] at hs
      have hout : t.carriesOut pass plan = true := by
        by_contra hnot
        rw [if_neg hnot] at hs
        exact nomatch hs
      rw [h.planFor?_eq hlinks hsome]
      by_cases hlt : t.engine.head.number < plan.candidate.number
      · rw [if_pos hlt, Option.filter_some, if_pos hout]
        exact Number.lt_irrefl _
      · rw [if_neg hlt]
        exact hlt

/-- `advance` preserves `Abreast`. -/
theorem Abreast.advance (h : Abreast s t) (hlinks : Shorter s t) :
    Abreast s.advance.1 t.advance.1 := by
  have hf := h.unheld.flight
  have hf' := h.unheld_right.flight
  have hwaiting : s.waiting = t.waiting := by
    show s.apart.waiting = t.apart.waiting
    rw [h.apart]
  -- the same pass is next in both lines
  cases hw : s.waiting with
  | nil =>
    rw [advance_idle hf hw, advance_idle hf' (hwaiting ▸ hw)]
    exact h
  | cons pass rest =>
    let s' : Session := { s with waiting := rest }
    let t' : Session := { t with waiting := rest }
    have happart : s'.apart = t'.apart := by
      show { s.apart with waiting := rest } = { t.apart with waiting := rest }
      rw [h.apart]
    have habreast : Abreast s' t' := ⟨happart, ⟨hf, h.unheld.holding⟩, h.behind⟩
    rw [advance_start hf hw, advance_start hf' (hwaiting ▸ hw)]
    exact habreast.start ⟨hlinks.isSuffix, hlinks.ascending⟩ pass

/-! ## Plays -/

/-- The session with another lookback, and no links yet. -/
def withLookback (s : Session) (n : Nat) : Session :=
  { s with tracker := { s.tracker with links := .empty n } }

variable {k n : Nat}

/-- `withLookback` leaves the links that this lookback leaves of the `derivations`. -/
theorem links_withLookback (s : Session) (hn : 0 < n) (moves : List Move) :
    ((s.withLookback n).play moves).1.tracker.links.toList
      = Links.ofDerivations n (derivations moves) :=
  links_play (holds_empty hn) moves

/-- `play` is `Shorter` under a smaller lookback. -/
theorem shorter_play (s : Session) (hk : 0 < k) (hle : k ≤ n)
    (h : (derivations moves).Pairwise (·.1.number < ·.1.number)) :
    Shorter ((s.withLookback k).play moves).1 ((s.withLookback n).play moves).1 := by
  have hn : 0 < n := by omega
  constructor
  · rw [links_withLookback s hk, links_withLookback s hn]
    exact Links.ofDerivations_isSuffix hk hle _
  · rw [links_withLookback s hn]
    exact Links.ascending_ofDerivations h

/-- `play` is `Abreast` under two lookbacks. -/
theorem abreast_play (h : Unheld s) (hk : 0 < k) (hle : k ≤ n)
    (hprompt : .act (.hold true) ∉ moves) (hascending : Ascending moves) :
    Abreast ((s.withLookback k).play moves).1 ((s.withLookback n).play moves).1 := by
  -- over the moves; the shorter row is a suffix of the longer one after each of them
  induction moves using List.reverseRecOn with
  | nil => exact ⟨rfl, ⟨h.flight, h.holding⟩, Number.lt_irrefl _⟩
  | append_singleton moves m ih =>
    have habreast := ih (fun hmem => hprompt (List.mem_append_left _ hmem))
      fun past hpast => hascending past (hpast.trans (List.prefix_append _ _))
    rw [play_concat, play_concat, Progress.fst_after, Progress.fst_after]
    cases m with
    | act action =>
      apply habreast.act
      rintro rfl
      exact hprompt (List.mem_append_right _ List.mem_cons_self)
    | advance =>
      exact habreast.advance (shorter_play s hk hle (hascending moves (List.prefix_append _ _)))

/-! ## Lagging -/

/-- The first session holds the end of the links of the second, with the same signal and throttle,
and its head is not ahead. -/
structure Lags (s t : Session) : Prop where
  links : s.tracker.links.toList <:+ t.tracker.links.toList
  signal : s.tracker.signal = t.tracker.signal
  lastTried : s.tracker.lastTried = t.tracker.lastTried
  head : s.engine.head.number ≤ t.engine.head.number

/-- Lookups do not wait, nobody moves an engine to NaN, and the L2 heights recorded ascend between
two resets. -/
structure Prompt (actions : List Action) : Prop where
  at_once : .hold true ∉ actions
  moved : ∀ block, .move block ∈ actions → block.number ≠ .nan
  ascending : Ascending (actions.map .act)

/-- An action of a move is among those of all moves (`Move.action?`). -/
theorem mem_actions {action : Action} (h : Move.act action ∈ moves) :
    action ∈ moves.filterMap Move.action? :=
  List.mem_filterMap.mpr ⟨.act action, h, rfl⟩

/-- `Prompt` moves are `Ascending`. -/
theorem Prompt.ascending_moves (h : Prompt (moves.filterMap Move.action?)) : Ascending moves := by
  intro past hpast
  rw [← derivations_actions]
  exact h.ascending _ ((hpast.filterMap Move.action?).map Move.act)

/-- A session with a smaller lookback `Lags` after every `play`. -/
theorem lags_play (h : Unheld s) (hhead : s.engine.head.number ≠ .nan) (hk : 0 < k) (hle : k ≤ n)
    (hmoves : Prompt (moves.filterMap Move.action?)) :
    Lags ((s.withLookback k).play moves).1 ((s.withLookback n).play moves).1 := by
  have hascending := hmoves.ascending_moves
  have habreast := abreast_play h hk hle (fun hmem => hmoves.at_once (mem_actions hmem)) hascending
  have hshorter := shorter_play s hk hle (hascending moves (List.prefix_refl moves))
  -- neither head ever becomes NaN
  have hnumber : ∀ m, ((s.withLookback m).play moves).1.engine.head.number ≠ .nan := by
    intro m
    have hlanded : (s.withLookback m).flight? = none := h.flight
    exact head_ne_nan_play (comparable_of_landed hlanded) hhead moves
      fun block hmem => hmoves.moved block (mem_actions hmem)
  refine ⟨hshorter.isSuffix, ?_, ?_, Number.le_of_not_lt (hnumber n) (hnumber k) habreast.behind⟩
  · have hsignal := congrArg (fun u => u.tracker.signal) habreast.apart
    exact hsignal
  · have hlastTried := congrArg (fun u => u.tracker.lastTried) habreast.apart
    exact hlastTried

/-- A session with a smaller lookback `Lags` one with a greater after every `play` and every
`run`. -/
theorem lookback_lag (h : Fresh s) (hheld : s.node.holding = false)
    (hhead : s.engine.head.number ≠ .nan) (hk : 0 < k) (hle : k ≤ n) :
    (∀ moves : List Move, Prompt (moves.filterMap Move.action?) →
      Lags ((s.withLookback k).play moves).1 ((s.withLookback n).play moves).1) ∧
    ∀ steps : List (List Action), Prompt steps.flatten →
      Lags ((s.withLookback k).run steps).1 ((s.withLookback n).run steps).1 := by
  have hunheld : Unheld s := ⟨h.flight, hheld⟩
  refine ⟨fun moves => lags_play hunheld hhead hk hle, fun steps hsteps => ?_⟩
  obtain ⟨moves, hactions, hrun⟩ := exists_play_of_unheld hsteps.at_once
  have hunheld' : ∀ m, Unheld (s.withLookback m) := fun m => ⟨h.flight, hheld⟩
  rw [hrun _ (hunheld' k) h.waiting, hrun _ (hunheld' n) h.waiting]
  rw [← hactions] at hsteps
  exact lags_play hunheld hhead hk hle hsteps

/-- The smaller lookback drops a link that the first signal reaches, and finalizes after the second
signal only. -/
def lagging : List (List Action) :=
  [[.setBlock 10 (l1At "a" 10).toValue, .setBlock 12 (l1At "f" 12).toValue],
    [.record (l2At 1) (l1At "a" 10).toBlockId, .record (l2At 2) (l1At "f" 12).toBlockId],
    [.call "first" (.signal (l1At "a" 10)) none],
    [.reset, .record (l2At 2) (l1At "f" 12).toBlockId],
    [.call "second" (.signal (l1At "f" 12)) none]]

/-- `lagging` meets the premises of `lookback_lag`: the smaller lookback drops a link that the first
signal reaches, and finalizes after the second signal only. -/
theorem lagging_lag :
    small.Fresh ∧ small.node.holding = false ∧ small.engine.head.number ≠ .nan ∧ 0 < 1 ∧ 1 ≤ 2 ∧
    Prompt lagging.flatten ∧
    ((small.withLookback 1).run (lagging.take 3)).1.engine.history = [] ∧
    ((small.withLookback 2).run (lagging.take 3)).1.engine.history = [l2At 1] ∧
    ((small.withLookback 1).run lagging).1.engine.history = [l2At 2] ∧
    ((small.withLookback 2).run lagging).1.engine.history = [l2At 1, l2At 2] ∧
    Lags ((small.withLookback 1).run lagging).1 ((small.withLookback 2).run lagging).1 := by
  -- the L2 numbers recorded ascend at every point
  have hascending : ∀ past ∈ (lagging.flatten.map Move.act).inits,
      (derivations past).Pairwise (·.1.number < ·.1.number) := by decide
  have hprompt : Prompt lagging.flatten := by
    refine ⟨by simp [lagging], by simp [lagging], fun past hpast => ?_⟩
    exact hascending past ((List.mem_inits ..).mpr hpast)
  have hhead : small.engine.head.number ≠ .nan := nofun
  exact ⟨fresh_small, rfl, hhead, by decide, by decide, hprompt, by rfl, by rfl, by rfl, by rfl,
    (lookback_lag fresh_small rfl hhead (by decide) (by decide)).2 lagging hprompt⟩

end Session

end Settlement
