/-
# Output that is cut off

A command list whose time runs out has been answered as well, with the output collected so far. The
same call, met by a longer answer, goes the same way up to that answer: it meets the same faults and
replaces the same connections, since neither depends on what is answered behind them. So two runs
can be compared, and the shorter output is what the longer one begins with.

Trimming changes nothing in this. It may take away blanks at the end of the shorter output that the
longer one keeps inside, but the trimmed texts go on from each other too.
-/
import Errand.Proofs.Output.Growth
import Errand.Proofs.Remote.ShellOutput
import Errand.Proofs.Text.Trimmed

namespace Errand.Remote

open Output.Terminal (plainText strip)

/-! ## Another answer -/

namespace Peer

variable {peer : Peer} {number : Nat} {reply : Reply}

/-- The peer with another reply to the request with a number, counted from zero. -/
def answering (number : Nat) (reply : Reply) (peer : Peer) : Peer :=
  { peer with answers := peer.answers.set number (.reply reply) }

theorem answerAt_answering (given : number < peer.answers.length) :
    (peer.answering number reply).answerAt number = .reply reply := by
  rw [answerAt, answering, List.getElem?_set_self given]
  rfl

theorem answerAt_answering_of_ne {other : Nat} (apart : number ≠ other) :
    (peer.answering number reply).answerAt other = peer.answerAt other := by
  rw [answerAt, answering, List.getElem?_set_ne apart]
  rfl

/-- Only what the other side does by itself is answered without being scripted, and that is in
time. -/
theorem given_of_timedOut (answered : peer.answerAt number = .reply reply)
    (late : reply.timedOut = true) : number < peer.answers.length := by
  apply Nat.lt_of_not_le
  intro beyond
  rw [answerAt, List.getElem?_eq_none beyond] at answered
  cases answered
  cases late

end Peer

namespace Session

variable {session : Session}

/-- The session whose other side gives another reply to the request with a number. -/
def answering (number : Nat) (reply : Reply) (session : Session) : Session :=
  { session with peer := session.peer.answering number reply }

/-- Another reply is met by the same attempts. -/
theorem fits_answering {faults : List Fault} {reply : Reply} {limit : Nat}
    (fits : (Course.attempted faults (.replied reply)).Fits session limit)
    (given : faults.length < session.peer.answers.length) (whole : Reply) :
    (Course.attempted faults (.replied whole)).Fits (session.answering faults.length whole)
      limit := by
  obtain ⟨faulted, accepted, within, -⟩ := fits
  refine ⟨fun number before => ?_, accepted, within, Peer.answerAt_answering given⟩
  rw [answering, Peer.answerAt_answering_of_ne (Nat.ne_of_gt before)]
  exact faulted number before

/-- A call that gives a result is answered, and would have been given what another answer in the
same place is read as. -/
theorem exists_answer_of_run {call : Run.Call} {options : Run.Options} {result : Run.Result}
    (gives : (session.run call options).1 = .ok result) :
    ∃ number reply, session.peer.answerAt number = .reply reply ∧ resultOf reply call = result ∧
      (number < session.peer.answers.length → ∀ whole,
        ((session.answering number whole).run call options).1 = .ok (resultOf whole call)) := by
  obtain ⟨course, fits, runs⟩ := session.exists_course_of_run call options
  rw [runs] at gives
  obtain ⟨faults, reply, rfl, read⟩ := Course.exists_of_outcome_ok gives
  refine ⟨faults.length, reply, fits.2.2.2, read, fun given whole => ?_⟩
  obtain ⟨other, fitsToo, runsToo⟩ :=
    (session.answering faults.length whole).exists_course_of_run call options
  rw [runsToo, fitsToo.unique (fits_answering fits given whole)]
  rfl

end Session

/-! ## More of an answer -/

/-- The output of one result goes on where that of another was cut off, before it is trimmed and
after. -/
structure GoesOn (reply whole : Reply) (result full : Run.Result) : Prop where
  shown : ShellOutput reply result
  shownWhole : ShellOutput whole full
  stdout : plainText reply.stdout <+: plainText whole.stdout
  stderr : plainText reply.stderr <+: plainText whole.stderr
  stdoutTrimmed : result.stdout <+: full.stdout
  stderrTrimmed : result.stderr <+: full.stderr

/-- A longer answer to a command list gives longer output. -/
theorem goesOn_resultOf {reply whole : Reply} (commands : List Text)
    (moreOut : reply.stdout <+: whole.stdout) (moreErr : reply.stderr <+: whole.stderr) :
    GoesOn reply whole (resultOf reply (.many commands)) (resultOf whole (.many commands)) := by
  have shown := shellOutput_resultOf reply commands
  have shownWhole := shellOutput_resultOf whole commands
  exact {
    shown := shown
    shownWhole := shownWhole
    stdout := Output.Terminal.plainText_mono moreOut
    stderr := Output.Terminal.plainText_mono moreErr
    stdoutTrimmed := by
      rw [shown.stdout, shownWhole.stdout]
      exact Text.trim_mono (Output.Terminal.plainText_mono moreOut)
    stderrTrimmed := by
      rw [shown.stderr, shownWhole.stderr]
      exact Text.trim_mono (Output.Terminal.plainText_mono moreErr) }

/-- The time of a command list runs out only if its answer says so. -/
theorem timedOut_resultOf (reply : Reply) (commands : List Text) :
    (resultOf reply (.many commands)).timedOut = reply.timedOut := by
  rw [resultOf]
  split
  · next late => exact late.symm
  · next inTime =>
      rw [Bool.eq_false_iff.mpr inTime]
      cases reply.exitStatus <;> rfl

namespace Session

/-- More bytes only add to what is decoded of them and to what is left of them as terminal output.
So if the time of a command list runs out, its output is what the call would have shown first, had
the answer that ended it gone on, whatever would have followed. -/
theorem cut_output_goes_on :
    (∀ bytes more, Utf8.decode bytes <+: Utf8.decode (bytes ++ more)) ∧
    (∀ bytes more, strip bytes <+: strip (bytes ++ more)) ∧
    ∀ (session : Session) commands options result,
      (session.run (.many commands) options).1 = .ok result → result.timedOut = true →
        ∃ number reply, session.peer.answerAt number = .reply reply ∧ reply.timedOut = true ∧
          resultOf reply (.many commands) = result ∧
          ∀ whole : Reply, reply.stdout <+: whole.stdout → reply.stderr <+: whole.stderr →
            ∃ full, ((session.answering number whole).run (.many commands) options).1 = .ok full ∧
              GoesOn reply whole result full := by
  refine ⟨fun bytes more => Utf8.decode_mono (List.prefix_append bytes more),
    fun bytes more => Output.Terminal.strip_mono (List.prefix_append bytes more), ?_⟩
  intro session commands options result gives timedOut
  obtain ⟨number, reply, answered, rfl, instead⟩ := exists_answer_of_run gives
  rw [timedOut_resultOf] at timedOut
  have given := Peer.given_of_timedOut answered timedOut
  refine ⟨number, reply, answered, timedOut, rfl, fun whole moreOut moreErr => ?_⟩
  exact ⟨_, instead given whole, goesOn_resultOf commands moreOut moreErr⟩

/-- A session whose connection faults once, and whose time then runs out inside a character
behind a colour. -/
def interrupted : Session :=
  ⟨.first, "omm@db01:22".toList, true, 0, 1,
    ⟨[], [.fault "reset".toList,
      .reply ⟨Utf8.encode "\x1b[1mup \n".toList ++ [0xE2, 0x82], [], none, true⟩]⟩, []⟩

/-- Whatever would have followed, the output would have begun as it did. -/
theorem interrupted_output_goes_on :
    (interrupted.run (.many ["uptime".toList]) .empty).1 = .ok ⟨"up".toList, [], none, true⟩ ∧
    ∃ number reply, interrupted.peer.answerAt number = .reply reply ∧ reply.timedOut = true ∧
      resultOf reply (.many ["uptime".toList]) = ⟨"up".toList, [], none, true⟩ ∧
      ∀ whole : Reply, reply.stdout <+: whole.stdout → reply.stderr <+: whole.stderr →
        ∃ full, ((interrupted.answering number whole).run (.many ["uptime".toList])
            .empty).1 = .ok full ∧
          GoesOn reply whole ⟨"up".toList, [], none, true⟩ full := by
  have gives : (interrupted.run (.many ["uptime".toList]) .empty).1 =
      .ok ⟨"up".toList, [], none, true⟩ := by decide
  exact ⟨gives, cut_output_goes_on.2.2 interrupted ["uptime".toList] .empty _ gives rfl⟩

end Session

end Errand.Remote
