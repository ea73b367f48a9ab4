import Payflow.Lib.Reading
import Payflow.Lib.Table
import Mathlib.Data.List.Nodup

/-! # Metrics as text

The text format of metrics: lines that are comments, and lines with a sample, which is a name, a label
between braces or none, and a value. A scraper reads back the samples that were written. -/

namespace Payflow.Lib

/-- A sample: its name, what stands between the braces, and its value. -/
structure Sample where
  name : List Char
  label : List Char
  value : ℕ
  deriving DecidableEq

/-- The letters of a name. -/
def isNameLetter (c : Char) : Bool := c.isAlphanum || c = '_' || c = ':'

/-- A line of the text. -/
inductive Line where
  | comment (text : List Char)
  | sample (x : Sample)

namespace Line

/-- A label between its braces, if there is one. -/
def labelText (label : List Char) : List Char :=
  if label = [] then [] else '\x7b' :: (label ++ ['\x7d'])

def text : Line → List Char
  | comment t => '#' :: t
  | sample x => x.name ++ (labelText x.label ++ ' ' :: Nat.toDigits 10 x.value)

def sample? : Line → Option Sample
  | comment _ => none
  | sample x => some x

/-- The line can be told from the others and from what follows. -/
def Fit : Line → Prop
  | comment t => '\n' ∉ t
  | sample x => x.name ≠ [] ∧ (∀ c ∈ x.name, isNameLetter c = true) ∧ '\x7d' ∉ x.label ∧ '\n' ∉ x.label

end Line

/-- What follows the name: the label, and the rest. -/
def readLabel (l : List Char) : List Char × List Char :=
  if l.head? = some '\x7b' then
    (l.tail.takeWhile (· ≠ '\x7d'), (l.tail.dropWhile (· ≠ '\x7d')).tail)
  else ([], l)

/-- Read a sample. -/
def readSample (l : List Char) : Option Sample :=
  let x := readLabel (l.dropWhile isNameLetter)
  if x.2.head? = some ' ' ∧ x.2.tail.all Char.isDigit then
    some ⟨l.takeWhile isNameLetter, x.1, numberOf x.2.tail⟩
  else none

/-- What is neither a comment nor empty. -/
def isSampleText (l : List Char) : Bool := l ≠ [] ∧ l.head? ≠ some '#'

/-- Read the samples of a text. -/
def readExposition (text : List Char) : Option (List Sample) :=
  ((text.splitOn '\n').filter isSampleText).mapM readSample

/-! ### What is read back -/

theorem Line.text_sample (x : Sample) : (sample x).text =
    x.name ++ (labelText x.label ++ ' ' :: Nat.toDigits 10 x.value) := rfl

theorem readLabel_labelText {label rest : List Char} (h : '\x7d' ∉ label) :
    readLabel (Line.labelText label ++ ' ' :: rest) = (label, ' ' :: rest) := by
  unfold readLabel Line.labelText
  split_ifs with hlabel hhead hhead
  · cases hhead
  · rw [hlabel]
    rfl
  · have hletters : ∀ c ∈ label, decide (c ≠ '\x7d') = true := fun c hc =>
      decide_eq_true fun he => h (he ▸ hc)
    have hpast : Past (fun c => decide (c ≠ '\x7d')) ('\x7d' :: ' ' :: rest) := past_cons rfl
    have htail : ('\x7b' :: (label ++ ['\x7d']) ++ ' ' :: rest).tail =
        label ++ '\x7d' :: ' ' :: rest := by simp
    rw [htail, takeWhile_append hletters hpast, dropWhile_append hletters hpast]
    rfl
  · exact absurd rfl hhead

theorem readSample_text {x : Sample} (h : (Line.sample x).Fit) :
    readSample (Line.sample x).text = some x := by
  obtain ⟨-, hname, hlabel, -⟩ := h
  have hpast : Past isNameLetter (Line.labelText x.label ++ ' ' :: Nat.toDigits 10 x.value) := by
    unfold Line.labelText
    split_ifs
    · exact past_cons rfl
    · exact past_cons rfl
  have hdigits : (Nat.toDigits 10 x.value).all Char.isDigit = true :=
    List.all_eq_true.mpr isDigit_toDigits
  unfold readSample Line.text
  simp only [takeWhile_append hname hpast, dropWhile_append hname hpast, readLabel_labelText hlabel,
    List.head?_cons, List.tail_cons, hdigits, and_self, if_true, numberOf_toDigits]

theorem newline_not_mem {l : Line} (h : l.Fit) : '\n' ∉ l.text := by
  cases l with
  | comment t =>
    unfold Line.text
    rw [List.mem_cons, not_or]
    exact ⟨by decide, h⟩
  | sample x =>
    obtain ⟨-, hname, -, hlabel⟩ := h
    unfold Line.text
    rw [List.mem_append, List.mem_append, List.mem_cons, not_or, not_or, not_or]
    refine ⟨fun hc => absurd (hname _ hc) (by decide), ?_, by decide,
      fun hc => absurd (isDigit_toDigits _ hc) (by decide)⟩
    unfold Line.labelText
    split_ifs
    · exact List.not_mem_nil
    · rw [List.mem_cons, List.mem_append, List.mem_singleton, not_or, not_or]
      exact ⟨by decide, hlabel, by decide⟩

theorem splitOn_lines {ls : List Line} (h : ∀ l ∈ ls, l.Fit) :
    (ls.flatMap fun l => l.text ++ ['\n']).splitOn '\n' = ls.map Line.text ++ [[]] := by
  rw [List.splitOn_eq_splitOnP]
  induction ls with
  | nil => rfl
  | cons l ls ih =>
    have hl : ∀ c ∈ l.text, (c == '\n') = false := by
      intro c hc
      rw [beq_eq_false_iff_ne]
      exact fun he => newline_not_mem (h l List.mem_cons_self) (he ▸ hc)
    rw [List.flatMap_cons, List.append_assoc, List.singleton_append,
      List.splitOnP_append_cons_of_forall_mem hl _ (by rfl), ih fun l hm => h l (List.mem_cons_of_mem _ hm)]
    rfl

theorem isSampleText_comment (t : List Char) : isSampleText (Line.comment t).text = false := rfl

theorem isSampleText_sample {x : Sample} (h : (Line.sample x).Fit) :
    isSampleText (Line.sample x).text = true := by
  obtain ⟨hne, hname, -, -⟩ := h
  obtain ⟨c, cs, hx⟩ := List.exists_cons_of_ne_nil hne
  have hc : c ≠ '#' := by
    intro he
    have hletter : isNameLetter c = true := hname c (hx ▸ List.mem_cons_self)
    rw [he] at hletter
    exact absurd hletter (by decide)
  have htext : (Line.sample x).text =
      c :: (cs ++ (Line.labelText x.label ++ ' ' :: Nat.toDigits 10 x.value)) :=
    congrArg (· ++ _) hx
  unfold isSampleText
  rw [htext, List.head?_cons]
  exact decide_eq_true ⟨List.cons_ne_nil _ _, fun he => hc (Option.some.inj he)⟩

/-- **The samples are read back.** -/
theorem readExposition_lines {ls : List Line} (h : ∀ l ∈ ls, l.Fit) :
    readExposition (ls.flatMap fun l => l.text ++ ['\n']) = some (ls.filterMap Line.sample?) := by
  unfold readExposition
  rw [splitOn_lines h, List.filter_append]
  induction ls with
  | nil => rfl
  | cons l ls ih =>
    have hls := ih fun l hm => h l (List.mem_cons_of_mem _ hm)
    cases l with
    | comment t =>
      have hout : ¬ isSampleText (Line.comment t).text = true := by
        rw [isSampleText_comment]
        exact Bool.false_ne_true
      rw [List.map_cons, List.filter_cons_of_neg hout, hls]
      rfl
    | sample x =>
      have hx := h _ List.mem_cons_self
      rw [List.map_cons, List.filter_cons_of_pos (isSampleText_sample hx), List.cons_append,
        List.mapM_cons, readSample_text hx, hls]
      rfl

/-! ### Series -/

/-- The series that a sample belongs to. -/
def Sample.series (x : Sample) : List Char × List Char := (x.name, x.label)

/-- The value of a series; one that is not there counts nothing. -/
def valueOf (xs : List Sample) (name label : List Char) : ℕ :=
  ((xs.find? fun x => x.series = (name, label)).map (·.value)).getD 0

/-- The sum over the series of a name. -/
def sumOf (xs : List Sample) (name : List Char) : ℕ := total (fun x => x.name = name) (·.value) xs

theorem valueOf_eq_total (name label : List Char) : ∀ {xs : List Sample},
    (xs.map Sample.series).Nodup →
      valueOf xs name label = total (fun x => x.series = (name, label)) (·.value) xs
  | [], _ => rfl
  | x :: xs, h => by
    obtain ⟨hx, hxs⟩ := List.nodup_cons.mp h
    have ih := valueOf_eq_total name label hxs
    rw [total_cons]
    unfold valueOf at ih ⊢
    rw [List.find?_cons]
    by_cases hs : x.series = (name, label)
    · have hnone : total (fun x => x.series = (name, label)) (·.value) xs = 0 :=
        total_eq_zero fun y hy =>
          decide_eq_false fun he => hx (hs.trans he.symm ▸ List.mem_map_of_mem hy)
      simp only [hs, decide_true, if_true, Option.map_some, Option.getD_some, hnone, Nat.add_zero]
    · simp only [hs, decide_false, Bool.false_eq_true, if_false, Nat.zero_add]
      exact ih

/-- The samples of one name: their labels and values. -/
structure Family where
  name : List Char
  samples : List (List Char × ℕ)

def Family.all (f : Family) : List Sample := f.samples.map fun x => ⟨f.name, x.1, x.2⟩

section families

variable {fs : List Family}

/-- Different names, and different labels under each of them. -/
structure Distinct (fs : List Family) : Prop where
  names : (fs.map Family.name).Nodup
  labels : ∀ f ∈ fs, (f.samples.map (·.1)).Nodup

/-- **Each series is there once.** -/
theorem Distinct.nodup (h : Distinct fs) : ((fs.flatMap Family.all).map Sample.series).Nodup := by
  have hall : ∀ f : Family, f.all.map Sample.series = f.samples.map fun x => (f.name, x.1) := by
    intro f
    unfold Family.all
    rw [List.map_map]
    rfl
  rw [List.map_flatMap, List.nodup_flatMap]
  constructor
  · intro f hf
    rw [hall]
    have hlabels := h.labels f hf
    rw [show (fun x : List Char × ℕ => (f.name, x.1)) = Prod.mk f.name ∘ Prod.fst from rfl,
      ← List.map_map]
    exact hlabels.map fun a b he => (Prod.mk.inj he).2
  · refine (List.pairwise_map.mp h.names).imp fun {f g} hne => ?_
    intro x hxf hxg
    simp only [hall] at hxf hxg
    obtain ⟨a, -, rfl⟩ := List.mem_map.mp hxf
    obtain ⟨b, -, he⟩ := List.mem_map.mp hxg
    exact hne (Prod.mk.inj he).1.symm

theorem total_family {sel : Sample → Bool} : ∀ {fs : List Family}, (fs.map Family.name).Nodup →
    ∀ {f : Family}, f ∈ fs → (∀ x, sel x = true → x.name = f.name) →
      total sel (·.value) (fs.flatMap Family.all) =
        total (fun x => sel ⟨f.name, x.1, x.2⟩) (·.2) f.samples
  | [], _, _, hf, _ => absurd hf List.not_mem_nil
  | g :: fs, hn, f, hf, hsel => by
    obtain ⟨hg, hn⟩ := List.nodup_cons.mp hn
    have hother : ∀ k : Family, k.name ≠ f.name → total sel (·.value) k.all = 0 := by
      intro k hk
      refine total_eq_zero fun x hx => ?_
      obtain ⟨y, -, rfl⟩ := List.mem_map.mp hx
      exact Bool.eq_false_iff.mpr fun hs => hk (hsel _ hs)
    rw [List.flatMap_cons, total_append]
    rcases List.mem_cons.mp hf with rfl | hf
    · have hrest : total sel (·.value) (fs.flatMap Family.all) = 0 := by
        refine total_eq_zero fun x hx => ?_
        obtain ⟨k, hk, hx⟩ := List.mem_flatMap.mp hx
        obtain ⟨y, -, rfl⟩ := List.mem_map.mp hx
        exact Bool.eq_false_iff.mpr fun hs => hg (hsel _ hs ▸ List.mem_map_of_mem hk)
      rw [hrest, Nat.add_zero]
      exact total_map _ _
    · have hne : g.name ≠ f.name := fun he => hg (he ▸ List.mem_map_of_mem hf)
      rw [hother g hne, Nat.zero_add, total_family hn hf hsel]

theorem Distinct.valueOf (h : Distinct fs) {f : Family} (hf : f ∈ fs) (label : List Char) :
    valueOf (fs.flatMap Family.all) f.name label = total (fun x => x.1 = label) (·.2) f.samples := by
  have hsel : ∀ x : Sample, decide (x.series = (f.name, label)) = true → x.name = f.name :=
    fun x hx => (Prod.mk.inj (of_decide_eq_true hx)).1
  rw [valueOf_eq_total _ _ h.nodup, total_family h.names hf hsel]
  refine congrArg (fun sel => total sel _ _) (funext fun x => ?_)
  simp [Sample.series]

theorem Distinct.sumOf (h : Distinct fs) {f : Family} (hf : f ∈ fs) :
    sumOf (fs.flatMap Family.all) f.name = total (fun _ => true) (·.2) f.samples := by
  unfold Lib.sumOf
  rw [total_family h.names hf fun x hx => of_decide_eq_true hx]
  simp only [decide_true]

end families

end Payflow.Lib
