import ConversionCoverage.Host.Usual
import ConversionCoverage.Proofs.Redaction

/-!
# The order of the examples does not matter

The names of the examples of a record are different, so that the examples can be put into the order
of their names in only one way. Whatever order they come in, the reports on them are the same.
-/

namespace ConversionCoverage

namespace Record

variable {r r' : Record} (hexamples : r.examples.Perm r'.examples)
include hexamples

private theorem sortedExamples_eq_of_perm : r.sortedExamples = r'.sortedExamples := by
  have hperm : r.sortedExamples.Perm r'.sortedExamples :=
    r.sortedExamples_perm.trans (hexamples.trans r'.sortedExamples_perm.symm)
  apply hperm.eq_of_pairwise _ r.pairwise_sortedExamples r'.pairwise_sortedExamples
  intro e f he hf hef hfe
  have he' : e ∈ r.examples := r.sortedExamples_perm.mem_iff.mp he
  have hf' : f ∈ r.examples := hexamples.mem_iff.mpr (r'.sortedExamples_perm.mem_iff.mp hf)
  exact List.inj_on_of_nodup_map r.names_nodup he' hf' (Text.le_antisymm hef hfe)

variable (hprovider : r.provider = r'.provider) (hversion : r.version = r'.version)
include hprovider hversion

private theorem countsAlike_of_perm : r.CountsAlike r' where
  provider := hprovider
  version := hversion
  examples := hexamples.length_eq
  attempts := (hexamples.flatMap_right Example.attempts).map Attempt.redacted

private theorem exampleReports_eq_of_perm : r.exampleReports = r'.exampleReports := by
  rw [exampleReports, exampleReports, sortedExamples_eq_of_perm hexamples]
  apply List.map_congr_left
  intro e _
  rw [ExampleReport.ofExample, ExampleReport.ofExample, hprovider, hversion]

end Record

namespace Export

/-- Two records of one provider with the same examples, in whatever order, have the same reports,
and their exports end in the same way: with the same fault or with the same paths, with the same
tree and with the same log. -/
theorem all_eq_of_perm [Host] (r r' : Record) (hprovider : r.provider = r'.provider)
    (hversion : r.version = r'.version) (hexamples : r.examples.Perm r'.examples) (s : Settings)
    (directory : FilePath) (w : Workspace) :
    (∀ kind : Report, kind.content r s = kind.content r' s) ∧
      (all r s directory).run.run w = (all r' s directory).run.run w := by
  have hcontent := Report.content_congr
    (Record.countsAlike_of_perm hexamples hprovider hversion)
    (Record.exampleReports_eq_of_perm hexamples hprovider hversion) s
  exact ⟨hcontent, by rw [all_congr hcontent]⟩

/-- A record with the same examples as `Record.mixed`, in the order of their names. -/
def unmixed : Record where
  provider := "provider"
  version := []
  examples := Record.mixed.examples.reverse
  names_nodup := by decide

open scoped Host in
theorem all_eq_of_perm_mixed :
    Record.mixed.examples ≠ unmixed.examples ∧
      (all Record.mixed .standard ⟨0, ["out"]⟩).run.run ⟨⟨[]⟩, []⟩ =
        (all unmixed .standard ⟨0, ["out"]⟩).run.run ⟨⟨[]⟩, []⟩ := by
  refine ⟨by decide, ?_⟩
  exact (all_eq_of_perm Record.mixed unmixed rfl rfl (List.reverse_perm _).symm .standard
    ⟨0, ["out"]⟩ ⟨⟨[]⟩, []⟩).2

end Export

end ConversionCoverage
