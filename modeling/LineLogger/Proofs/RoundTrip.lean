import LineLogger.Proofs.Documents
import LineLogger.Proofs.Json.Printing

namespace LineLogger

open Json

theorem Json.document_printed {α : Type} {read : Bytes → Read α} {cs : List Char} {a : α}
    (h : Reads read cs a) : document read (String.ofList cs) = .ok a := by
  apply document_reads h blanks_nil blanks_nil
  rw [String.toList_ofList, List.nil_append, List.append_nil]

namespace Time.Format

theorem reads_printJson (f : Format) : Reads readJson f.printJson f :=
  Reads.map (written_escape f.template.toList).reads Format.mk

end Time.Format

namespace Verbosity

def printedEntries (v : Verbosity) : List Entry := [.level v.level, .quiet v.quiet]

theorem object_printJson (v : Verbosity) : Object Entry.Spells v.printedEntries v.printJson :=
  object_printObject <| .cons (.level (written_printed _ _) (literal_ofInt _)) <|
    .cons (.quiet (written_printed _ _) rfl) .nil

theorem single_printedEntries (v : Verbosity) : Single v.printedEntries := by
  change (["level", "quiet"].filter (["level", "quiet"].contains ·)).Nodup
  decide

end Verbosity

namespace Config

def printedEntries (c : Config) : List Entry :=
  [.verbosity c.verbosity.printedEntries, .timeFormat c.timeFormat.template]

theorem single_printedEntries (c : Config) : Single c.printedEntries := by
  change (["verbosity", "time_format"].filter (["verbosity", "time_format"].contains ·)).Nodup
  decide

theorem document_toJson (c : Config) : Document c.printedEntries c.toJson := by
  have hv := c.verbosity.object_printJson
  have ho : Object Entry.Spells c.printedEntries c.printJson :=
    object_printObject <|
      .cons (.verbosity (written_printed _ _) hv c.verbosity.single_printedEntries) <|
        .cons (.timeFormat (written_escape _) (written_escape _)) .nil
  refine .mk blanks_nil blanks_nil ho c.single_printedEntries ?_
  rw [toJson, String.toList_ofList, List.nil_append, List.append_nil]

/-- What is printed is a document, and it is read as what it was. It is valid unless its level is
below that of quiet. -/
theorem json_round_trip :
    (∀ v : Verbosity, Verbosity.ofJson v.toJson = .ok v) ∧
    (∀ f : Time.Format, Time.Format.ofJson f.toJson = .ok f) ∧
    ∀ c : Config, Document c.printedEntries c.toJson ∧ ofJson c.toJson = .ok c ∧
      (load c.toJson = .ok c ↔ -1 ≤ c.verbosity.level) ∧
      ((∃ part reason, load c.toJson = .error (.invalidConfiguration part reason)) ↔
        c.verbosity.level < -1) ∧
      ∀ e, load c.toJson ≠ .error (.json e) := by
  refine ⟨fun v => ?_, fun f => document_printed f.reads_printJson, fun c => ?_⟩
  · exact document_printed (Verbosity.reads_object v.object_printJson v.single_printedEntries)
  · have hj : ofJson c.toJson = .ok c := c.document_toJson.ofJson.1
    exact ⟨c.document_toJson, hj, load_eq_ok_iff hj, load_invalid_iff hj, load_ne_json hj⟩

end Config

end LineLogger
