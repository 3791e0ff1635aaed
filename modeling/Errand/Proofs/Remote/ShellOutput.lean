/-
# The output of command lists

A list of commands runs in an interactive shell, whose output holds whatever the programs send
to the terminal. A call that gives a result has been answered as its last event, and the result
is made of that answer: the output without its control sequences, trimmed. Stripping gives
clean text, so the decoding behind it finds no byte to leave out.
-/
import Errand.Proofs.Output.Clean
import Errand.Proofs.Remote.Life

namespace Errand.Remote

open Output.Terminal (IsClean plainText strip)

/-- Where the output of a command list comes from: two texts that are stripped from the
answer. -/
structure ShellOutput (reply : Reply) (result : Run.Result) : Prop where
  stdout : result.stdout = (plainText reply.stdout).trim
  stderr : result.stderr = (plainText reply.stderr).trim
  stdout_whole : Utf8.decode? (strip reply.stdout) = some (plainText reply.stdout)
  stderr_whole : Utf8.decode? (strip reply.stderr) = some (plainText reply.stderr)

/-- A reply gives a command list its stripped output, also if the time ran out. -/
theorem shellOutput_resultOf (reply : Reply) (commands : List Text) :
    ShellOutput reply (resultOf reply (.many commands)) := by
  have outputs : (resultOf reply (.many commands)).outputs =
      ((plainText reply.stdout).trim, (plainText reply.stderr).trim) := by
    rw [← Output.Terminal.settle_strip, ← Output.Terminal.settle_strip, resultOf]
    split
    · rfl
    · cases reply.exitStatus <;> rfl
  exact {
    stdout := congrArg Prod.fst outputs
    stderr := congrArg Prod.snd outputs
    stdout_whole := Output.Terminal.decode?_strip reply.stdout
    stderr_whole := Output.Terminal.decode?_strip reply.stderr }

namespace Session

/-- A call that gives a result has been answered as the last that happened. -/
theorem exists_reply_of_run {session : Session} {call : Run.Call} {options : Run.Options}
    {result : Run.Result} (gives : (session.run call options).1 = .ok result) :
    ∃ reply earlier, resultOf reply call = result ∧ (session.run call options).2.trace =
      earlier ++ [.sent (requestOf options call) (.reply reply)] := by
  obtain ⟨course, -, runs⟩ := session.exists_course_of_run call options
  rw [runs] at gives ⊢
  obtain ⟨faults, reply, rfl, read⟩ := Course.exists_of_outcome_ok gives
  rw [Course.after_trace, Course.events, Ending.events, ← List.append_assoc, ← List.append_assoc]
  exact ⟨reply, _, read, rfl⟩

/-- Stripping gives clean text and changes no clean text, so it is done once for all. The
outputs that a call reports for a command list are the stripped outputs of its answer, and
neither loses a byte to the decoder. -/
theorem shell_output_is_stripped :
    (∀ bytes, (strip bytes).toByteArray.IsValidUTF8 ∧
      Utf8.decode? (strip bytes) = some (plainText bytes) ∧ ∀ c ∈ plainText bytes, IsClean c) ∧
    (∀ text : Text, (∀ c ∈ text, IsClean c) → strip (Utf8.encode text) = Utf8.encode text) ∧
    (∀ bytes, strip (strip bytes) = strip bytes) ∧
    (∀ reply commands, ShellOutput reply (resultOf reply (.many commands))) ∧
    ∀ (session : Session) commands options result,
      (session.run (.many commands) options).1 = .ok result →
        ∃ reply earlier, ShellOutput reply result ∧
          (session.run (.many commands) options).2.trace =
            earlier ++ [.sent (requestOf options (.many commands)) (.reply reply)] := by
  refine ⟨fun bytes => ⟨⟨plainText bytes, rfl⟩, Output.Terminal.decode?_strip bytes,
      fun _ => Output.Terminal.isClean_of_mem_plainFrom⟩,
    fun _ => Output.Terminal.strip_encode, Output.Terminal.strip_strip, shellOutput_resultOf, ?_⟩
  intro session commands options result gives
  obtain ⟨reply, earlier, rfl, traced⟩ := exists_reply_of_run gives
  exact ⟨reply, earlier, shellOutput_resultOf reply commands, traced⟩

/-- A session whose next request is answered in bold, with a stray byte at the end. -/
def colorful : Session :=
  ⟨.first, "omm@db01:22".toList, true, 0, 0,
    ⟨[], [.reply ⟨Utf8.encode "\x1b[1mup\x1b[0m\r\n".toList ++ [0xFF], [], some 0, false⟩]⟩, []⟩

/-- The bold answer is reported plain, and a text that is clean already stays what it is. -/
theorem colorful_output_is_stripped :
    (∃ reply earlier, ShellOutput reply ⟨"up".toList, [], some 0, false⟩ ∧
      (colorful.run (.many ["uptime".toList]) .empty).2.trace =
        earlier ++ [.sent (requestOf .empty (.many ["uptime".toList])) (.reply reply)]) ∧
    strip (Utf8.encode ['a', '\t', 'b', '\n']) = Utf8.encode ['a', '\t', 'b', '\n'] := by
  obtain ⟨-, unchanged, -, -, answered⟩ := shell_output_is_stripped
  have clean : ∀ c ∈ ['a', '\t', 'b', '\n'], IsClean c := by
    intro c member
    simp only [List.mem_cons, List.not_mem_nil, or_false] at member
    rcases member with rfl | rfl | rfl | rfl <;> decide
  exact ⟨answered colorful ["uptime".toList] .empty _ (by decide), unchanged _ clean⟩

end Session

end Errand.Remote
