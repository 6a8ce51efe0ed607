import Reclaim.Config.Store
import Reclaim.Proofs.Course.Basic
import Reclaim.Proofs.Toml.Distinct
import Reclaim.Proofs.Toml.Writing
import Reclaim.Proofs.Validation

/-!
Settings and the content of their file. Whatever name the settings give, the text that is written
for them is read as a table of their two keys, and that table gives the same settings.
-/

namespace Reclaim

theorem fromUTF8?_toUTF8 (text : String) : String.fromUTF8? text.toUTF8 = some text := by
  unfold String.fromUTF8?
  rw [String.toUTF8_eq_toByteArray, dif_pos text.isValidUTF8]
  rfl

namespace Host

/-- A file can be read, and holds a text. -/
def Reads (host : Host) (path text : String) : Prop :=
  ∃ content, host.read path = .ok content ∧ String.fromUTF8? content = some text

def holding (text : String) : Host :=
  { bare with tree := Files.Tree.empty.put ["f"] (.file text.toUTF8) }

theorem reads_holding (text : String) : (holding text).Reads "f" text :=
  ⟨text.toUTF8, rfl, fromUTF8?_toUTF8 text⟩

end Host

section Tables

variable {table : Toml.Table} {key : String} {value : Option String}

theorem Toml.Value.text?_eq_some_iff {value : Toml.Value} {text : String} :
    value.text? = some text ↔ value = .string text := by
  cases value <;> simp [Toml.Value.text?]

theorem mem_ofTable : (key, value) ∈ Fields.ofTable table ↔
    ∃ v, (key, v) ∈ table ∧ v.text? = value := by
  simp [Fields.ofTable]

theorem keys_ofTable : (Fields.ofTable table).map (·.1) = table.map (·.1) := by
  simp [Fields.ofTable]

theorem distinct_ofTable (h : table.Distinct) : (Fields.ofTable table).Distinct := by
  rw [Fields.Distinct, keys_ofTable]
  exact h.once

theorem exists_table {α : Type} {f : Toml.Table → α} {a : α} {text : String}
    (h : (Toml.read text).toOption.map f = some a) :
    ∃ table, Toml.read text = .ok table ∧ f table = a := by
  cases hread : Toml.read text with
  | error defect => simp [hread, Except.toOption] at h
  | ok table => exact ⟨table, rfl, by simpa [hread, Except.toOption] using h⟩

end Tables

namespace Config

open Toml

theorem isBareKey_threadName : IsBareKey threadNameKey := ⟨by decide, List.all_eq_true.mp rfl⟩

theorem isBareKey_strategy : IsBareKey strategyKey := ⟨by decide, List.all_eq_true.mp rfl⟩

def table (config : Config) : Toml.Table :=
  [(threadNameKey, .string config.threadName), (strategyKey, .string config.defaultStrategy.name)]

theorem read_text (config : Config) : Toml.read config.text = .ok config.table := by
  obtain ⟨name, hname⟩ : ∃ p, Progress.start.addValue [threadNameKey]
      (.string config.threadName) = .ok p ∧ p.addValue [strategyKey]
      (.string config.defaultStrategy.name) = .ok ⟨config.table, [], [], [], []⟩ :=
    ⟨_, rfl, rfl⟩
  have hlines : config.text.toList = writeLine threadNameKey config.threadName ++
      (writeLine strategyKey config.defaultStrategy.name ++ []) := by
    simp [text]
  have hraw : '\r' ∉ config.text.toList := by
    rw [hlines]
    simp [not_mem_writeLine isBareKey_threadName, not_mem_writeLine isBareKey_strategy]
  obtain ⟨fuel, hfuel⟩ : ∃ fuel, config.text.toList.length + 1 = fuel + 1 + 1 + 1 := by
    refine ⟨config.text.toList.length - 2, ?_⟩
    have : 2 ≤ config.text.toList.length := by
      rw [hlines]
      simp [writeLine]
      omega
    omega
  rw [Toml.read, joinLineEnds_of_not_mem hraw, hfuel, hlines]
  rw [readStatements_writeLine isBareKey_threadName _ hname.1,
    readStatements_writeLine isBareKey_strategy _ hname.2]
  rfl

theorem ofFields_table (config : Config) : ofFields (.ofTable config.table) = .ok config := by
  have hname : readThreadName (.ofTable config.table) =
      .ok ⟨config.threadName, config.threadName_ne⟩ := by
    have hget : Fields.get? (.ofTable config.table) threadNameKey = some (some config.threadName) :=
      rfl
    simp only [readThreadName, hget, config.threadName_ne, dite_false]
  have hstrategy : readStrategy (.ofTable config.table) = .ok config.defaultStrategy := by
    have hget : Fields.get? (.ofTable config.table) strategyKey =
      some (some config.defaultStrategy.name) := rfl
    simp only [readStrategy, hget, Option.bind_some, Builtin.ofText?_name]
  have hunknown : Fields.unknown (.ofTable config.table) [threadNameKey, strategyKey] = [] := rfl
  simp only [ofFields, hname, hstrategy, hunknown]

theorem ofBytes_text (config : Config) : ofBytes config.text.toUTF8 = .ok config := by
  simp only [ofBytes, fromUTF8?_toUTF8, read_text, ofFields_table]

end Config
end Reclaim
