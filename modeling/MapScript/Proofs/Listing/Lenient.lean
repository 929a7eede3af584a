/-
This file compares lenient with strict reading. The two part where a byte stands for nothing:
the strict one stops there, and the lenient one leaves a notice and goes on. Notices are never
taken back, so a lenient reading that has none of these has met no such byte, and is the strict
reading. Whatever else a strict reading comes to, a lenient one comes to the same, with the same
notices.
-/

import MapScript.Proofs.Listing.Inert
import MapScript.Proofs.Listing.Scripts

namespace MapScript

/-- An attempt stopped at a byte that stands for nothing, and these notices say that this byte
was skipped. -/
def Skips {α : Type} (name : String) (attempt : Except Fault α) (notices : List Notice) : Prop :=
  ∃ kind value offset, attempt = .error (.of (.unknownByte kind value offset)) ∧
    .skipped name kind value offset ∈ notices

/-! ### Reading -/

namespace Decoder

variable {α β : Type} {name : String}

/-- A lenient reading follows a strict one: it takes no notice back, and comes to the same, or
skips the byte that the strict one stops at. -/
def Follows (name : String) (strict lenient : Decoder α) : Prop :=
  ∀ scan, scan.notices <+: (lenient.result scan).2.notices ∧
    (lenient.result scan = strict.result scan ∨
      Skips name (strict.result scan).1 (lenient.result scan).2.notices)

theorem follows_bind {strict lenient : Decoder α} {next later : α → Decoder β}
    (first : Follows name strict lenient)
    (following : ∀ value, Follows name (next value) (later value)) :
    Follows name (strict >>= next) (lenient >>= later) := by
  intro scan
  obtain ⟨kept, same | skips⟩ := first scan
  · cases ended : strict.result scan with
    | mk attempt middle =>
      rw [ended] at same
      rw [same] at kept
      cases attempt with
      | error fault =>
        rw [result_bind_error same, result_bind_error ended]
        exact ⟨kept, .inl rfl⟩
      | ok value =>
        rw [result_bind same, result_bind ended]
        obtain ⟨more, rest⟩ := following value middle
        exact ⟨kept.trans more, rest⟩
  · -- The strict reading has stopped; the lenient one keeps its notice, however it goes on.
    have further : (lenient.result scan).2.notices <+:
        ((lenient >>= later).result scan).2.notices := by
      cases ended : lenient.result scan with
      | mk attempt middle =>
        cases attempt with
        | error fault => simp only [result_bind_error ended, List.prefix_rfl]
        | ok value =>
          rw [result_bind ended]
          exact (following value middle).1
    obtain ⟨kind, value, offset, stopped, noted⟩ := skips
    have still : (strict >>= next).result scan =
        (.error (.of (.unknownByte kind value offset)), (strict.result scan).2) :=
      result_bind_error (Prod.ext stopped rfl) next
    refine ⟨kept.trans further, .inr ?_⟩
    rw [still]
    exact ⟨kind, value, offset, rfl, further.subset noted⟩

/-- A step that leaves no notice and does not ask whether reading is lenient. -/
theorem follows_quiet {decoder : Decoder α}
    (quiet : ∀ scan, (decoder.result scan).2.notices = scan.notices) :
    Follows name decoder decoder := by
  intro scan
  rw [quiet]
  exact ⟨List.prefix_rfl, .inl rfl⟩

theorem follows_take (reading : Reading) (size : Nat) :
    Follows name (take reading size) (take reading size) := by
  refine follows_quiet fun scan => ?_
  rw [result_take]
  split
  · rfl
  · rfl

theorem follows_changeLine (change : ListedLine → ListedLine) :
    Follows name (changeLine change) (changeLine change) :=
  follows_quiet fun scan => by rw [result_changeLine]

theorem follows_note (text : Option String) : Follows name (note text) (note text) :=
  follows_quiet fun scan => by rw [result_note]

theorem follows_unknown (program : Program) (symbols : Symbols) (kind : ByteKind) (value : UInt8)
    (offset : Nat) :
    Follows program.name (unknown ⟨program, symbols, false⟩ kind value offset)
      (unknown ⟨program, symbols, true⟩ kind value offset) :=
  fun _ => ⟨List.prefix_append _ _, .inr ⟨kind, value.toNat, offset, rfl,
    List.mem_append_right _ List.mem_cons_self⟩⟩

theorem relates_follows (program : Program) (symbols : Symbols) :
    RelatesLines ⟨program, symbols, false⟩ ⟨program, symbols, true⟩
      fun _ => Follows program.name where
  agrees := ⟨rfl, rfl⟩
  pure _ := follows_quiet fun _ => rfl
  bind := follows_bind
  lift _ := follows_quiet fun _ => rfl
  take := follows_take ⟨program, symbols, false⟩
  position := follows_quiet fun _ => rfl
  emit _ := follows_changeLine _
  emitLabel _ := follows_bind (follows_quiet fun _ => rfl) fun _ => follows_changeLine _
  unknown := follows_unknown program symbols
  subtitle _ := follows_note _
  flagComment here there := by
    cases here.symm.trans there
    exact follows_note _
  beginLine := follows_quiet fun _ => rfl
  deepen := follows_quiet fun _ => rfl
  surface := follows_quiet fun _ => rfl
  markEmpty := follows_changeLine _

end Decoder

/-! ### Texts -/

/-- The text and the notices that are left when reading has ended. Only if it came to its end
are there labels to look for. -/
def Program.written (program : Program) :
    Except Fault Unit × Scan → Except Fault String × List Notice
  | (.error fault, scan) => (.error fault, scan.notices)
  | (.ok _, scan) =>
    (.ok ("\n".intercalate ((scan.listing program).render program)),
      scan.notices ++ ((scan.listing program).looseLabels program.code.length).map
        (Notice.looseLabel program.name))

theorem Program.outcome_text_eq (program : Program) (symbols : Symbols) (lenient : Bool) :
    (program.text symbols lenient).outcome =
      program.written
        ((Decoder.script ⟨program, symbols, lenient⟩).result (.start program.code)) := by
  have same : ExceptT.run (Decoder.script ⟨program, symbols, lenient⟩) (.start program.code) =
    (Decoder.script ⟨program, symbols, lenient⟩).result (.start program.code) := rfl
  unfold text textLines listing
  rw [same]
  obtain ⟨attempt, scan⟩ :=
    (Decoder.script ⟨program, symbols, lenient⟩).result (.start program.code)
  cases attempt with
  | error fault => rfl
  | ok value =>
    have noted := Logged.run_notes (Notice.looseLabel program.name)
      ((scan.listing program).looseLabels program.code.length) scan.notices
    have listed := Logged.run_bind noted fun _ => pure (scan.listing program)
    have lines := Logged.run_bind listed fun listing => pure (listing.render program)
    exact Logged.run_bind lines fun lines => pure ("\n".intercalate lines)

/-- A program is written leniently as it is written strictly, or else a byte is skipped that the
strict reading stops at. -/
theorem Program.outcome_text_cases (program : Program) (symbols : Symbols) :
    (program.text symbols true).outcome = (program.text symbols false).outcome ∨
      Skips program.name (program.text symbols false).outcome.1
        (program.text symbols true).outcome.2 := by
  rw [outcome_text_eq, outcome_text_eq]
  obtain ⟨-, same | skips⟩ := (Decoder.relates_follows program symbols).script (.start program.code)
  · rw [same]
    exact .inl rfl
  · generalize (Decoder.script ⟨program, symbols, true⟩).result (.start program.code) = loose
      at skips
    generalize (Decoder.script ⟨program, symbols, false⟩).result (.start program.code) = strict
      at skips
    have kept : loose.2.notices <+: (program.written loose).2 := by
      obtain ⟨attempt, scan⟩ := loose
      cases attempt with
      | error fault => exact List.prefix_rfl
      | ok value => exact List.prefix_append _ _
    obtain ⟨kind, value, offset, stopped, noted⟩ := skips
    obtain ⟨attempt, scan⟩ := strict
    cases stopped
    exact .inr ⟨kind, value, offset, rfl, kept.subset noted⟩

/-- Lenient reading extends strict reading. A program that is written strictly is written so
leniently, with the same notices; what stops the strict reading stops the lenient one, unless it
is a byte that stands for nothing; and a program that is written leniently is written so
strictly, unless a byte was skipped. -/
theorem Program.text_lenient_extends (program : Program) (symbols : Symbols) :
    (∀ text notices, (program.text symbols false).outcome = (.ok text, notices) →
        (program.text symbols true).outcome = (.ok text, notices)) ∧
      (∀ fault notices, (program.text symbols false).outcome = (.error fault, notices) →
        (∀ kind value offset, fault.cause ≠ .unknownByte kind value offset) →
        (program.text symbols true).outcome = (.error fault, notices)) ∧
      ∀ text notices, (program.text symbols true).outcome = (.ok text, notices) →
        (∀ kind value offset, .skipped program.name kind value offset ∉ notices) →
        (program.text symbols false).outcome = (.ok text, notices) := by
  have cases := program.outcome_text_cases symbols
  refine ⟨fun text notices strict => ?_, fun fault notices strict other => ?_,
    fun text notices lenient none => ?_⟩
  · rw [strict] at cases
    obtain same | ⟨_, _, _, stopped, -⟩ := cases
    · exact same
    · cases stopped
  · rw [strict] at cases
    obtain same | ⟨kind, value, offset, stopped, -⟩ := cases
    · exact same
    · cases stopped
      exact absurd rfl (other kind value offset)
  · rw [lenient] at cases
    obtain same | ⟨kind, value, offset, -, noted⟩ := cases
    · exact same.symm
    · exact absurd noted (none kind value offset)

/-! ### A sample -/

def marshProgram (code : Bytes) : Program := ⟨"MARSH", code, 0, [], []⟩

/-- A jump into its own operand, code that ends too soon, and a jump behind a byte that stands
for nothing. -/
theorem Program.text_lenient_extends_marsh :
    (((marshProgram [4, 1, 0, 0, 0]).text doorSymbols false).outcome =
        (.ok "MARSH\n\x7b\n  Goto #01\n\x7d", [.looseLabel "MARSH" 1]) ∧
      ((marshProgram [4, 1, 0, 0, 0]).text doorSymbols true).outcome =
        (.ok "MARSH\n\x7b\n  Goto #01\n\x7d", [.looseLabel "MARSH" 1])) ∧
    ((marshProgram [0x12, 4, 0]).text doorSymbols true).outcome =
      (.error (.of (.truncated (.script "MARSH") 2 4 1)), []) ∧
    ((marshProgram [0x12]).text doorSymbols false).outcome =
      (.ok "MARSH\n\x7b\n  Return\n\x7d", []) ∧
    ((marshProgram [0xFF, 4, 0, 0, 0, 0]).text doorSymbols false).outcome =
      (.error (.of (.unknownByte .opcode 0xFF 0)), []) ∧
    ((marshProgram [0xFF, 4, 0, 0, 0, 0]).text doorSymbols true).outcome =
      (.ok "MARSH\n\x7b\n  \n  Goto\n\x7d", [.skipped "MARSH" .opcode 0xFF 0]) := by
  refine ⟨⟨rfl, ?_⟩, ?_, ?_, rfl, rfl⟩
  · exact (text_lenient_extends (marshProgram [4, 1, 0, 0, 0]) doorSymbols).1 _ _ rfl
  · exact (text_lenient_extends (marshProgram [0x12, 4, 0]) doorSymbols).2.1 _ _ rfl
      fun _ _ _ same => by cases same
  · exact (text_lenient_extends (marshProgram [0x12]) doorSymbols).2.2 _ _ rfl
      fun _ _ _ => List.not_mem_nil

end MapScript
