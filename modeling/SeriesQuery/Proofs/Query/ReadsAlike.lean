import SeriesQuery.Proofs.Json.ReadsAlike
import SeriesQuery.Proofs.Query.RoundTrip

/-!
# Queries read from a text and from its value

Parts, targets and descriptors are read alike from a text and from the value of the text, by the
laws for the readers they are put together from.
-/

namespace SeriesQuery.Query

open Json (Node ReadsAlike Value)

namespace TaggedPart

theorem readsAlike_set (field : String) (p : TaggedPart) :
    ReadsAlike fun origin node => reader.set origin field p node := by
  intro room n v hn hkeys q
  unfold reader
  simp only
  split
  next => exact ReadsAlike.string.bind _ hn hkeys q
  next => exact ReadsAlike.string.option.bind _ hn hkeys q
  next => exact ReadsAlike.value.list.bind _ hn hkeys q
  next => rfl

theorem readsAlike : ReadsAlike TaggedPart.read :=
  .record reader_independent readsAlike_set _

end TaggedPart

theorem ColumnPart.readsAlike : ReadsAlike ColumnPart.read := TaggedPart.readsAlike.bind _

theorem ColumnSpec.readsAlike : ReadsAlike ColumnSpec.read := ColumnPart.readsAlike.list

theorem Condition.readsAlike : ReadsAlike Condition.read := TaggedPart.readsAlike.bind _

theorem Grouping.readsAlike : ReadsAlike Grouping.read := TaggedPart.readsAlike.bind _

namespace Target

theorem readsAlike_set (field : String) (t : Target) :
    ReadsAlike fun origin node => reader.set origin field t node := by
  intro room n v hn hkeys u
  unfold reader
  simp only
  split
  next => exact ReadsAlike.string.option.bind _ hn hkeys u
  next => exact ReadsAlike.string.option.bind _ hn hkeys u
  next => exact ReadsAlike.bool.option.bind _ hn hkeys u
  next => exact ReadsAlike.string.option.bind _ hn hkeys u
  next => exact ReadsAlike.string.option.bind _ hn hkeys u
  next => exact ReadsAlike.string.option.bind _ hn hkeys u
  next => exact ReadsAlike.string.option.bind _ hn hkeys u
  next => exact ColumnSpec.readsAlike.list.option.bind _ hn hkeys u
  next => exact Condition.readsAlike.list.option.bind _ hn hkeys u
  next => exact Grouping.readsAlike.list.option.bind _ hn hkeys u
  next => rfl

theorem readsAlike : ReadsAlike Target.read := .record reader_independent readsAlike_set _

end Target

theorem Descriptor.readsAlike : ReadsAlike Descriptor.read := Target.readsAlike.bind _

end SeriesQuery.Query
