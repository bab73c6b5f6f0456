import Settlement.Proofs.Lookup.Served
import Settlement.Proofs.Session.Cleared

/-!
# Blocks that the node vouches for

A node vouches for a block if whoever looks it up hears its hash, sooner or later. A pass that is
not cancelled, and whose two blocks are vouched for, gets to its commit: it can have to wait, and
that is all.

## Key results

- `hash?_promptReply_of_equal`: equal heights are looked up alike
- `checkSignal_comes`, `resume_comes`: a pass whose blocks are vouched for waits or commits
- `issued_play`: tickets are given out once
-/

namespace Settlement.Session

variable {s t : Session} {pass : Pass} {plan : Plan} {stage : Stage} {reply : Reply}
  {id : BlockId}

/-- The reply to a lookup of the block has its hash. -/
def Vouches (s : Session) (id : BlockId) : Prop :=
  (s.promptReply id.number).hash? = some id.hash

/-! ## What is heard -/

/-- `promptReply` depends on the source, the blocks and the outage. -/
theorem promptReply_congr (hsource : t.source = s.source) (hblocks : t.node.blocks = s.node.blocks)
    (houtage : t.node.outage? = s.node.outage?) : t.promptReply = s.promptReply := by
  funext asked
  unfold promptReply Node.answer
  rw [hsource, hblocks, houtage]

/-- `sameKey` does not tell equal heights apart. -/
private theorem sameKey_congr {x y : Number} (h : x.equal y = true) (key : Number) :
    key.sameKey x = key.sameKey y := by
  have hle := Number.le_of_equal h
  obtain ⟨hx, hy⟩ := Number.ne_nan_of_le hle
  have hequal : key.equal x = key.equal y := by
    refine Bool.eq_iff_iff.mpr ⟨fun hkey => Number.equal_trans hkey h, fun hkey => ?_⟩
    exact Number.equal_trans hkey (Number.equal_comm x y ▸ h)
  -- neither of them is NaN, which has a key of its own
  rw [Number.sameKey, Number.sameKey, hequal, beq_eq_false_iff_ne.mpr hx,
    beq_eq_false_iff_ne.mpr hy]

/-- `answer` gives the same hash at equal heights. -/
private theorem hash?_answer_of_equal {x y : Number} (h : x.equal y = true) (n : Node) :
    (n.answer x).hash? = (n.answer y).hash? := by
  have hkey : (fun entry : Number × Value => entry.1.sameKey x)
      = fun entry => entry.1.sameKey y := funext fun entry => sameKey_congr h entry.1
  unfold Node.answer
  rw [hkey]
  cases n.outage? with
  | some outage => rfl
  | none => cases n.blocks.find? fun entry => entry.1.sameKey y <;> rfl

/-- `Asked.ofNumber` is the same for equal integers. -/
private theorem ofNumber_of_equal {x y : Number} {n : Int} (h : x.equal y = true)
    (hx : x.toInt? = some n) : Asked.ofNumber x = Asked.ofNumber y := by
  have hy := Number.toInt?_of_equal hx h
  -- of equal integers only the two zeros differ, and both have the text of zero
  have htext : x.text = y.text := by
    rcases Number.toInt?_eq_some_iff.mp hx with rfl | ⟨rfl, rfl⟩ <;>
      rcases Number.toInt?_eq_some_iff.mp hy with rfl | ⟨rfl, hzero⟩
    · rfl
    · rw [hzero]
      rfl
    · rfl
    · rfl
  simp only [Asked.ofNumber, hx, hy, htext]

/-- `promptReply` gives the same hash at equal heights. -/
theorem hash?_promptReply_of_equal {x y : Number} (h : x.equal y = true) (s : Session) :
    (s.promptReply x).hash? = (s.promptReply y).hash? := by
  unfold promptReply
  cases s.source with
  | direct => exact hash?_answer_of_equal h s.node
  | rpc =>
    -- over RPC equal numbers are asked for as the same integer, or not at all
    cases hx : x.toInt? with
    | some n =>
      have hasked := ofNumber_of_equal h hx
      simp only [Source.address, Source.deliver, Lookup.verified, hasked]
    | none =>
      have hy : y.toInt? = none := by
        cases hy : y.toInt? with
        | none => rfl
        | some n =>
          exact nomatch hx.symm.trans (Number.toInt?_of_equal hy (Number.equal_comm x y ▸ h))
      simp only [Source.address, Asked.ofNumber, hx, hy]
      rfl

/-- `Vouches` respects `same`. -/
theorem Vouches.congr {other : BlockId} (h : s.Vouches id) (hsame : other.same id = true) :
    s.Vouches other := by
  simp only [BlockId.same, Bool.and_eq_true, beq_iff_eq] at hsame
  have hheard : (s.promptReply other.number).hash? = (s.promptReply id.number).hash? :=
    hash?_promptReply_of_equal hsame.1 s
  exact hheard.trans (hsame.2 ▸ h)

/-! ## Passes whose blocks are vouched for -/

/-- The session after a pass that can carry out its plan: it waits for a lookup, or has offered its
candidate to the engine. -/
inductive Comes (s : Session) (pass : Pass) (plan : Plan) : Session → Prop
  | waits {stage : Stage} {height : Number}
      (address : s.source.address (plan.expected stage).number = .ok height) :
      Comes s pass plan (s.await pass plan stage height)
  | commits :
      Comes s pass plan { s with
        engine := if s.refusal?.isNone then s.engine.commit plan.candidate else s.engine
        flight? := none }

/-- `answer` leaves a session as in `Comes` if what follows does. -/
theorem answer_comes {passed : Session → Progress} (hfree : s.reason? pass = none)
    (hheard : reply.hash? = some (plan.expected stage).hash)
    (hpassed : Comes s pass plan (passed s).1) :
    Comes s pass plan (s.answer pass plan stage reply passed).1 := by
  rw [fst_answer, hfree, Plan.check_of_hash? hheard]
  exact hpassed

/-- `consult` leaves a session as in `Comes` if what follows the expected hash does. -/
theorem consult_comes {goOn : Session → Reply → Progress} (hfree : s.reason? pass = none)
    (hvouched : s.Vouches (plan.expected stage))
    (hgo : ∀ reply, reply.hash? = some (plan.expected stage).hash →
      Comes s pass plan (goOn s reply).1) :
    Comes s pass plan (s.consult pass plan stage goOn).1 := by
  unfold Vouches promptReply at hvouched
  unfold consult ask
  rw [hfree]
  dsimp only
  cases haddress : s.source.address (plan.expected stage).number with
  | error fault =>
    -- what cannot be asked for is not vouched for
    rw [haddress] at hvouched
    exact nomatch hvouched
  | ok height =>
    rw [haddress] at hvouched
    dsimp only
    cases himmediate : s.node.immediate? height with
    | none => exact .waits haddress
    | some raw =>
      have hraw : raw = s.node.answer height := by
        unfold Node.immediate? at himmediate
        split at himmediate
        · exact nomatch himmediate
        · exact (Option.some.inj himmediate).symm
      exact hgo _ (hraw ▸ hvouched)

/-- The pass is not cancelled, nothing has overtaken it, and the node `Vouches` for both blocks. -/
structure Ready (s : Session) (pass : Pass) (plan : Plan) : Prop where
  free : s.reason? pass = none
  generation : s.tracker.generation = plan.generation
  higher : s.engine.head.number < plan.candidate.number
  vouched : ∀ stage, s.Vouches (plan.expected stage)

/-- `answerProvenance` of a pass that is `Ready` offers its candidate. -/
theorem answerProvenance_comes (h : s.Ready pass plan)
    (hheard : reply.hash? = some plan.derivedFrom.hash) :
    Comes s pass plan (s.answerProvenance pass plan reply).1 := by
  refine answer_comes h.free hheard ?_
  rw [fst_commit_of_higher h.generation h.higher]
  exact .commits

/-- `checkProvenance` of a pass that is `Ready` waits, or offers its candidate. -/
theorem checkProvenance_comes (h : s.Ready pass plan) :
    Comes s pass plan (s.checkProvenance pass plan).1 :=
  consult_comes h.free (h.vouched .provenance) fun _ hheard => answerProvenance_comes h hheard

/-- `answerSignal` of a pass that is `Ready` waits, or offers its candidate. -/
theorem answerSignal_comes (h : s.Ready pass plan) (hheard : reply.hash? = some plan.signal.hash) :
    Comes s pass plan (s.answerSignal pass plan reply).1 :=
  answer_comes h.free hheard (checkProvenance_comes h)

/-- `checkSignal` of a pass that is `Ready` waits, or offers its candidate. -/
theorem checkSignal_comes (h : s.Ready pass plan) :
    Comes s pass plan (s.checkSignal pass plan).1 :=
  consult_comes h.free (h.vouched .signal) fun _ hheard => answerSignal_comes h hheard

/-- `resume` of a pass that is `Ready` waits, or offers its candidate. -/
theorem resume_comes {flight : Flight} (h : s.Ready flight.pass flight.plan)
    (hheard : reply.hash? = some (flight.plan.expected flight.stage).hash) :
    Comes { s with flight? := none } flight.pass flight.plan (s.resume flight reply).1 := by
  have hready : Ready { s with flight? := none } flight.pass flight.plan :=
    ⟨h.free, h.generation, h.higher, h.vouched⟩
  unfold resume
  -- at either stage it hears the hash that it expects
  cases hstage : flight.stage with
  | signal =>
    rw [hstage] at hheard
    exact answerSignal_comes hready hheard
  | provenance =>
    rw [hstage] at hheard
    exact answerProvenance_comes hready hheard

/-! ## Tickets -/

/-- The tickets of the lookups at the node were given out. -/
def Issued (s : Session) : Prop := ∀ held ∈ s.node.held, held.ticket < s.tickets

/-- `await` preserves `Issued`. -/
theorem Issued.await (h : s.Issued) (height : Number) :
    (s.await pass plan stage height).Issued := by
  intro held hmem
  rcases List.mem_append.mp hmem with hmem | hmem
  · exact Nat.lt_succ_of_lt (h held hmem)
  · obtain rfl := List.mem_singleton.mp hmem
    exact Nat.lt_succ_self _

/-- A `Leg` preserves `Issued`. -/
theorem Issued.leg {begun : Prop} {made : List Event} {p : Progress} (h : s.Issued)
    (hleg : Leg pass plan begun s made p) : p.1.Issued := by
  cases hleg with
  | waits lookups commitments heads => exact h.await _
  | ends commitments heads => exact h
  | commits lookups generation higher commitments heads quiet => exact h

/-- `deliver` preserves `Issued`. -/
theorem Issued.deliver (h : s.Issued) (ticket : Nat) (reply : Reply) :
    (s.deliver ticket reply).Issued := by
  obtain ⟨reply?, heq⟩ := exists_deliver_eq s ticket reply
  rw [heq]
  exact h

/-- `release` preserves `Issued`. -/
theorem Issued.release (h : s.Issued) (reason? : Option Value) (ticket? : Option Nat) :
    (s.release reason? ticket?).Issued := by
  rcases release_cases s reason? ticket? with ⟨-, heq⟩ | ⟨held, -, heq⟩
  · rw [heq]
    exact h
  · have hanswered : Issued { s with node := s.node.forget held.ticket } := fun other hmem =>
      h other (Node.held_forget_subset _ _ hmem)
    rw [heq]
    exact hanswered.deliver _ _

/-- `move` preserves `Issued`. -/
theorem Issued.move (h : s.Issued) (m : Move) : (s.move m).1.Issued := by
  cases m with
  | act action =>
    cases action with
    | release reason? ticket? => exact h.release reason? ticket?
    | cancel token reason =>
      obtain ⟨cancelled, events, reply?, heq, -⟩ := exists_cancel_eq s token reason
      show (s.cancel token reason).1.Issued
      rw [heq]
      exact h
    | _ => exact h
  | advance =>
    have hadvanced := advanced s
    show s.advance.1.Issued
    generalize s.advance = p at hadvanced
    -- a leg hands out one ticket more at most
    cases hadvanced with
    | stays => exact h
    | resumes flight_eq leg => exact Issued.leg (s := { s with flight? := none }) h (leg [])
    | passes flight_eq waiting_eq => exact h
    | @starts pass rest plan q flight_eq waiting_eq due plan_eq leg =>
      have hlanded : q.1.Issued := Issued.leg (s := { s with waiting := rest }.took pass) h leg
      exact hlanded

/-- `play` preserves `Issued`. -/
theorem issued_play (h : s.Issued) (moves : List Move) : (s.play moves).1.Issued := by
  induction moves generalizing s with
  | nil => exact h
  | cons m moves ih =>
    rw [play_cons, Progress.fst_after]
    exact ih (h.move m)

end Settlement.Session
