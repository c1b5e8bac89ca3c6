import Foco.GraphResolver
import Foco.NestedRanges

/-!
The symbol that a reference stands in: of the symbols around it the one whose lines and columns,
counted together, span least. Where ranges are nested, this should be the innermost.
-/
namespace Foco.ContainingSymbols
open GraphResolver NestedRanges

/-- The range of a symbol that has one. -/
def range (symbol : CodeGraphResolverSymbolRecord) : Option (Range Position) :=
  match symbol.startLine, symbol.startColumn, symbol.endLine, symbol.endColumn with
  | some startLine, some startColumn, some endLine, some endColumn =>
    some ⟨toLex (startLine, startColumn), toLex (endLine, endColumn)⟩
  | _, _, _, _ => none

/-- The lines a symbol spans. -/
def lines (symbol : CodeGraphResolverSymbolRecord) : Int :=
  symbol.endLine.getD 0 - symbol.startLine.getD 0

/-- The columns between the start and the end of a symbol, on whatever lines they are. -/
def columns (symbol : CodeGraphResolverSymbolRecord) : Int :=
  symbol.endColumn.getD 0 - symbol.startColumn.getD 0

/-- The first symbol lies inside the second. -/
def LiesIn (inner outer : CodeGraphResolverSymbolRecord) : Prop :=
  ∃ r r', range inner = some r ∧ range outer = some r' ∧ r.Inside r'

/-- Different symbols have different ranges, nested or apart. -/
def Framed (symbols : List CodeGraphResolverSymbolRecord) : Prop :=
  ∀ symbol ∈ symbols, ∀ other ∈ symbols, symbol ≠ other → ∀ r r', range symbol = some r →
    range other = some r' → r ≠ r' ∧ (r.Inside r' ∨ r'.Inside r ∨ r.Apart r')

/-- A symbol around a position in which no other one around it lies. -/
structure Innermost (symbols : List CodeGraphResolverSymbolRecord) (line column : Int)
    (symbol : CodeGraphResolverSymbolRecord) : Prop where
  mem : symbol ∈ symbols
  holds : contains line column symbol = true
  innermost : ∀ other ∈ symbols, contains line column other = true → other ≠ symbol →
    ¬ LiesIn other symbol

/-- Every other symbol around a position spans more lines than the innermost one, where it spans
fewer columns: at least one line for ten thousand columns, and in a tie the innermost comes first. -/
def Separated (symbols : List CodeGraphResolverSymbolRecord) (line column : Int) : Prop :=
  ∀ inner outer, Innermost symbols line column inner → outer ∈ symbols →
    contains line column outer = true → outer ≠ inner →
    columns inner - columns outer < 10000 * (lines outer - lines inner) ∨
    columns inner - columns outer = 10000 * (lines outer - lines inner) ∧
      (symbols.filter (contains line column)).idxOf inner <
        (symbols.filter (contains line column)).idxOf outer

section Symbols

variable {symbols : List CodeGraphResolverSymbolRecord} {line column : Int}
  {symbol inner outer : CodeGraphResolverSymbolRecord}

theorem contains_eq : contains line column symbol =
    (range symbol).any fun r => decide (r.Holds (toLex (line, column))) := by
  obtain ⟨_, _, _, _, _, startLine, startColumn, endLine, endColumn⟩ := symbol
  cases startLine <;> cases startColumn <;> cases endLine <;> cases endColumn <;>
    first | rfl | exact (Bool.decide_and _ _).symm

theorem contains_iff : contains line column symbol = true ↔
    ∃ r, range symbol = some r ∧ r.Holds (toLex (line, column)) := by
  rw [contains_eq, Option.any_eq_true]
  simp only [decide_eq_true_eq]

theorem extent_eq (holds : contains line column symbol = true) :
    extent symbol = lines symbol * 10000 + columns symbol := by
  unfold contains at holds
  split at holds
  · next startLine startColumn endLine endColumn =>
    simp only [extent, lines, columns, startLine, startColumn, endLine, endColumn, Option.getD_some]
  · cases holds

/-- Of two symbols around a position one lies inside the other. -/
theorem liesIn_or (framed : Framed symbols) (mem : inner ∈ symbols) (mem' : outer ∈ symbols)
    (ne : inner ≠ outer) (here : contains line column inner = true)
    (there : contains line column outer = true) : LiesIn inner outer ∨ LiesIn outer inner := by
  obtain ⟨r, ranged, held⟩ := contains_iff.mp here
  obtain ⟨r', ranged', held'⟩ := contains_iff.mp there
  obtain within | around | apart := (framed inner mem outer mem' ne r r' ranged ranged').2
  · exact .inl ⟨r, r', ranged, ranged', within⟩
  · exact .inr ⟨r', r, ranged', ranged, around⟩
  · exact absurd apart (held.not_apart held')

theorem Innermost.unique (framed : Framed symbols) (first : Innermost symbols line column inner)
    (second : Innermost symbols line column outer) : inner = outer := by
  by_contra ne
  obtain within | around := liesIn_or framed first.mem second.mem ne first.holds second.holds
  · exact second.innermost inner first.mem first.holds ne within
  · exact first.innermost outer second.mem second.holds (Ne.symm ne) around

theorem exists_innermost_symbol (framed : Framed symbols)
    (inside : ∃ symbol ∈ symbols, contains line column symbol = true) :
    ∃ inner, Innermost symbols line column inner := by
  obtain ⟨symbol, mem, holds⟩ := inside
  have some_ : symbols.filter (contains line column) ≠ [] :=
    List.ne_nil_of_mem (List.mem_filter.mpr ⟨mem, holds⟩)
  obtain ⟨inner, mem', least⟩ := exists_innermost
    (fun symbol => (range symbol).getD ⟨toLex (0, 0), toLex (0, 0)⟩) some_
  obtain ⟨mem', holds'⟩ := List.mem_filter.mp mem'
  refine ⟨inner, mem', holds', fun other there held ne => ?_⟩
  rintro ⟨r, r', ranged, ranged', within⟩
  have same := least other (List.mem_filter.mpr ⟨there, held⟩)
  rw [ranged, ranged', Option.getD_some, Option.getD_some] at same
  exact (framed other there inner mem' ne r r' ranged ranged').1 (same within)

theorem containingSymbol_eq_some : containingSymbol symbols ⟨some line, some column⟩ = some symbol ↔
    (symbol ∈ symbols ∧ contains line column symbol = true) ∧
      (∀ other ∈ symbols, contains line column other = true → extent symbol ≤ extent other) ∧
      ∀ other ∈ symbols, contains line column other = true → extent other ≤ extent symbol →
        (symbols.filter (contains line column)).idxOf symbol ≤
          (symbols.filter (contains line column)).idxOf other := by
  have least : containingSymbol symbols ⟨some line, some column⟩ =
      (symbols.filter (contains line column)).argmin extent := rfl
  rw [least, List.argmin_eq_some_iff]
  simp only [List.mem_filter, and_imp]

end Symbols

/-- The innermost symbol around a position is found exactly if the symbols around it are separated. -/
theorem containingSymbol_innermost_iff {symbols : List CodeGraphResolverSymbolRecord}
    {line column : Int} (framed : Framed symbols)
    (inside : ∃ symbol ∈ symbols, contains line column symbol = true) :
    (∃ symbol, containingSymbol symbols ⟨some line, some column⟩ = some symbol ∧
      Innermost symbols line column symbol) ↔ Separated symbols line column := by
  constructor
  · rintro ⟨symbol, found, innermost⟩ inner outer innermost' mem holds ne
    obtain rfl := innermost.unique framed innermost'
    obtain ⟨-, least, first⟩ := containingSymbol_eq_some.mp found
    have le := least outer mem holds
    have order := first outer mem holds
    rw [extent_eq innermost.holds, extent_eq holds] at le order
    obtain lt | same := lt_or_eq_of_le le
    · exact .inl (by omega)
    · refine .inr ⟨by omega, lt_of_le_of_ne (order (by omega)) fun index => ne ?_⟩
      have here : symbol ∈ symbols.filter (contains line column) :=
        List.mem_filter.mpr ⟨innermost.mem, innermost.holds⟩
      exact ((List.idxOf_inj here).mp index).symm
  · intro separated
    obtain ⟨inner, innermost⟩ := exists_innermost_symbol framed inside
    refine ⟨inner, containingSymbol_eq_some.mpr ⟨⟨innermost.mem, innermost.holds⟩, ?_, ?_⟩,
      innermost⟩
    · intro outer mem holds
      by_cases same : outer = inner
      · rw [same]
      rw [extent_eq innermost.holds, extent_eq holds]
      obtain lt | ⟨tie, -⟩ := separated inner outer innermost mem holds same
      · omega
      · omega
    · intro outer mem holds le
      by_cases same : outer = inner
      · rw [same]
      rw [extent_eq innermost.holds, extent_eq holds] at le
      obtain lt | ⟨-, first⟩ := separated inner outer innermost mem holds same
      · omega
      · exact first.le

/-! A declaration far to the right on its first line that ends on the next, and one inside it. -/

def symbolAt (id startLine startColumn endLine endColumn : Int) : CodeGraphResolverSymbolRecord :=
  { id, fileId := 1, name := [], visibility := none, metadataJson := [], startLine, startColumn,
    endLine, endColumn }

def nestedSymbols : List CodeGraphResolverSymbolRecord :=
  [symbolAt 1 1 20000 2 0, symbolAt 2 1 20010 1 20020]

theorem nestedSymbols_liesIn : LiesIn (symbolAt 2 1 20010 1 20020) (symbolAt 1 1 20000 2 0) := by
  refine ⟨_, _, rfl, rfl, ?_⟩
  unfold Range.Inside
  decide

theorem nestedSymbols_framed : Framed nestedSymbols := by
  obtain ⟨inner, outer, ranged, ranged', within⟩ := nestedSymbols_liesIn
  have ne : inner ≠ outer := by
    obtain rfl := Option.some.inj ranged
    obtain rfl := Option.some.inj ranged'
    decide
  intro symbol mem other mem' differ r r' here there
  simp only [nestedSymbols, List.mem_cons, List.not_mem_nil, or_false] at mem mem'
  obtain rfl | rfl := mem <;> obtain rfl | rfl := mem'
  · exact absurd rfl differ
  · obtain rfl := Option.some.inj (here.symm.trans ranged')
    obtain rfl := Option.some.inj (there.symm.trans ranged)
    exact ⟨Ne.symm ne, .inr (.inl within)⟩
  · obtain rfl := Option.some.inj (here.symm.trans ranged)
    obtain rfl := Option.some.inj (there.symm.trans ranged')
    exact ⟨ne, .inl within⟩
  · exact absurd rfl differ

theorem nestedSymbols_iff :
    (∃ symbol, containingSymbol nestedSymbols ⟨some 1, some 20015⟩ = some symbol ∧
      Innermost nestedSymbols 1 20015 symbol) ↔ Separated nestedSymbols 1 20015 :=
  containingSymbol_innermost_iff nestedSymbols_framed
    ⟨symbolAt 1 1 20000 2 0, by simp [nestedSymbols], by decide⟩

/-- The outer symbol is found, although the other one around the position lies inside it. -/
theorem nestedSymbols_outer : Framed nestedSymbols ∧
    ¬ ∃ symbol, containingSymbol nestedSymbols ⟨some 1, some 20015⟩ = some symbol ∧
      Innermost nestedSymbols 1 20015 symbol := by
  refine ⟨nestedSymbols_framed, ?_⟩
  rintro ⟨symbol, found, innermost⟩
  have outer : containingSymbol nestedSymbols ⟨some 1, some 20015⟩ =
      some (symbolAt 1 1 20000 2 0) := by decide
  obtain rfl := Option.some.inj (outer.symm.trans found)
  exact innermost.innermost (symbolAt 2 1 20010 1 20020) (by simp [nestedSymbols]) (by decide)
    (by decide) nestedSymbols_liesIn

end Foco.ContainingSymbols
