import LineScopes.Proofs.Style.ColorMap
import Mathlib.Data.List.Induction
import Mathlib.Data.List.Nodup
import Mathlib.Data.List.ReduceOption

/-!
# The numbers a color map gives out

Colors are asked for one after the other. A growing map numbers them in the order in which they are
met, and a fixed map finds each one at its last place in the list, if that is not place 0. A request
that fails leaves the map as it was.

**Main definitions.** `ColorMap.ask`, `ColorMap.after`, `ColorMap.answers`. `ColorMap.met`: the
colors of some requests. `ColorMap.LastPlace`.

**Main statements.** `after_empty`, `answers_empty`: a growing map. `ask_fixed_eq_ok_iff`: a fixed
map. `answers_of_requests`: all requests.
-/

namespace LineScopes
namespace ColorMap

/-- Asks for the number of a color. If there is none, the map stays as it is. -/
def ask
    (m : ColorMap)
    (color : Option String) : Except Error Nat × ColorMap :=
  match m.id? color with
  | .ok (n, m') => (.ok n, m')
  | .error e => (.error e, m)

/-- The map after some requests. -/
def after
    (m : ColorMap)
    (requests : List (Option String)) : ColorMap :=
  requests.foldl (fun m color => (m.ask color).2) m

/-- The answers to some requests. -/
def answers
    (m : ColorMap) : List (Option String) → List (Except Error Nat)
  | [] => []
  | color :: rest => (m.ask color).1 :: (m.ask color).2.answers rest

@[simp] theorem after_concat
    (m : ColorMap)
    (requests : List (Option String))
    (color : Option String) :
    m.after (requests ++ [color]) = ((m.after requests).ask color).2 := by
  simp [after]

theorem answers_concat
    (m : ColorMap)
    (requests : List (Option String))
    (color : Option String) :
    m.answers (requests ++ [color]) = m.answers requests ++ [((m.after requests).ask color).1] := by
  induction requests generalizing m with
  | nil =>
      rfl
  | cons first rest ih =>
      rw [List.cons_append, answers, ih, answers]
      rfl

/-! ### Growing maps -/

/-- The colors that are asked for, in uppercase. -/
def wanted (requests : List (Option String)) : List String :=
  requests.reduceOption.map Unicode.upper

/-- The colors that are asked for, each one where it is asked for first. -/
def met (requests : List (Option String)) : List String :=
  (wanted requests).eraseDups

/-- The number of a color by its place among the colors met; no color has number 0. -/
def numberIn
    (seen : List String) : Option String → Nat
  | none => 0
  | some color => seen.idxOf (Unicode.upper color) + 1

section Lists

variable {α β : Type} [BEq α] [LawfulBEq α] [BEq β] [LawfulBEq β]

theorem eraseDups_concat
    (xs : List α)
    (x : α) :
    (xs ++ [x]).eraseDups = if x ∈ xs then xs.eraseDups else xs.eraseDups ++ [x] := by
  rw [List.eraseDups_append]
  by_cases hx : x ∈ xs <;> simp [List.removeAll, List.eraseDups_cons, hx]

theorem nodup_eraseDups (xs : List α) :
    xs.eraseDups.Nodup := by
  induction xs using List.reverseRecOn with
  | nil =>
      simp
  | append_singleton xs x ih =>
      rw [eraseDups_concat]
      split
      · exact ih
      · rename_i hx
        exact ih.append (List.nodup_singleton x) (by simpa using hx)

/-- What tells the elements of a list apart keeps their order without repetitions. -/
theorem eraseDups_map
    {f : α → β}
    {xs : List α}
    (hf : ∀ x ∈ xs, ∀ y ∈ xs, f x = f y → x = y) :
    (xs.map f).eraseDups = xs.eraseDups.map f := by
  induction xs using List.reverseRecOn with
  | nil =>
      simp
  | append_singleton xs x ih =>
      have hmem : f x ∈ xs.map f ↔ x ∈ xs := by
        refine ⟨fun h => ?_, List.mem_map_of_mem⟩
        obtain ⟨y, hy, hsame⟩ := List.mem_map.mp h
        rwa [← hf y (by simp [hy]) x (by simp) hsame]
      have hrest := ih fun y hy z hz => hf y (by simp [hy]) z (by simp [hz])
      rw [List.map_append, List.map_cons, List.map_nil, eraseDups_concat, eraseDups_concat, hrest]
      by_cases hx : x ∈ xs <;> simp [hmem, hx]

end Lists

theorem wanted_concat
    (requests : List (Option String))
    (color : Option String) :
    wanted (requests ++ [color]) = wanted requests ++ (color.map Unicode.upper).toList := by
  cases color <;> simp [wanted, List.reduceOption_append]

@[simp] theorem met_concat_none (requests : List (Option String)) :
    met (requests ++ [none]) = met requests := by
  simp [met, wanted_concat]

theorem met_concat_some
    (requests : List (Option String))
    (color : String) :
    met (requests ++ [some color]) =
      if Unicode.upper color ∈ met requests then met requests
      else met requests ++ [Unicode.upper color] := by
  simp [met, wanted_concat, eraseDups_concat]

theorem nodup_met (requests : List (Option String)) :
    (met requests).Nodup :=
  nodup_eraseDups (wanted requests)

theorem mem_met
    {requests : List (Option String)}
    {color : String}
    (h : some color ∈ requests) :
    Unicode.upper color ∈ met requests := by
  rw [met, List.mem_eraseDups]
  exact List.mem_map_of_mem (List.reduceOption_mem_iff.mpr h)

/-- A growing map knows the number of a color that it has met; a new color gets the next number. -/
theorem ask_growing
    (seen : List String)
    (color : String) :
    (growing seen).ask (some color) =
      if Unicode.upper color ∈ seen then (.ok (numberIn seen (some color)), growing seen)
      else (.ok (seen.length + 1), growing (seen ++ [Unicode.upper color])) := by
  unfold ask id?
  rcases growing_id seen color with ⟨i, hfound, hid⟩ | ⟨hfound, hid⟩
  · obtain ⟨hi, hindex⟩ := List.findIdx?_eq_some_iff_findIdx_eq.mp hfound
    have hplace : seen.idxOf (Unicode.upper color) = i := hindex
    have hmem : Unicode.upper color ∈ seen := List.idxOf_lt_length_iff.mp (hplace.symm ▸ hi)
    rw [if_pos hmem]
    simp [hid, numberIn, hplace]
  · have hnew : Unicode.upper color ∉ seen := fun hmem => by
      simpa using List.findIdx?_eq_none_iff.mp hfound _ hmem
    rw [if_neg hnew]
    simp [hid]

/-- A growing map consists of the colors it has met. -/
theorem after_empty (requests : List (Option String)) :
    empty.after requests = growing (met requests) := by
  induction requests using List.reverseRecOn with
  | nil =>
      rfl
  | append_singleton requests color ih =>
      rw [after_concat, ih]
      cases color with
      | none =>
          rw [met_concat_none]
          rfl
      | some color =>
          rw [ask_growing, met_concat_some]
          split <;> rfl

/-- More requests do not change the number of a color that has been met. -/
theorem numberIn_met_append
    {requests : List (Option String)}
    {color : Option String}
    (h : color ∈ requests)
    (later : List (Option String)) :
    numberIn (met (requests ++ later)) color = numberIn (met requests) color := by
  cases color with
  | none =>
      rfl
  | some color =>
      have hmet : met (requests ++ later) =
          met requests ++ ((wanted later).removeAll (wanted requests)).eraseDups := by
        rw [met, met, ← List.eraseDups_append]
        simp [wanted, List.reduceOption_append]
      simp only [numberIn, hmet, List.idxOf_append_of_mem (mem_met h)]

theorem answers_empty (requests : List (Option String)) :
    empty.answers requests = requests.map fun color => .ok (numberIn (met requests) color) := by
  induction requests using List.reverseRecOn with
  | nil =>
      rfl
  | append_singleton requests color ih =>
      have hbefore : requests.map (fun color => Except.ok (numberIn (met requests) color)) =
          requests.map fun c => (Except.ok (numberIn (met (requests ++ [color])) c) :
            Except Error Nat) :=
        List.map_congr_left fun c hc => by rw [numberIn_met_append hc]
      rw [answers_concat, ih, hbefore, after_empty, List.map_append, List.map_cons, List.map_nil]
      congr 2
      cases color with
      | none =>
          rfl
      | some color =>
          rw [ask_growing, met_concat_some]
          split
          · rfl
          · rename_i hnew
            simp [numberIn, List.idxOf_append_of_notMem hnew]

/-- The numbers that are given out, each one where it is given out first, are 1, 2 and so on. -/
theorem eraseDups_numbers (requests : List (Option String)) :
    ((requests.map (numberIn (met requests))).filter (· ≠ 0)).eraseDups =
      List.range' 1 (met requests).length := by
  have hnumbers : ∀ (seen : List String) (requests : List (Option String)),
      (requests.map (numberIn seen)).filter (· ≠ 0) =
        (wanted requests).map fun color => seen.idxOf color + 1 := by
    intro seen requests
    induction requests with
    | nil =>
        rfl
    | cons color requests ih =>
        cases color with
        | none =>
            simpa [numberIn, wanted] using ih
        | some color =>
            simpa [numberIn, wanted] using ih
  have htold : ∀ color ∈ wanted requests, ∀ other ∈ wanted requests,
      (met requests).idxOf color + 1 = (met requests).idxOf other + 1 → color = other := by
    intro color hcolor other _ hsame
    exact (List.idxOf_inj (List.mem_eraseDups.mpr hcolor)).mp (Nat.succ.inj hsame)
  have hplaces : (met requests).map (fun color => (met requests).idxOf color + 1) =
      List.range' 1 (met requests).length := by
    refine List.ext_getElem (by simp) fun i hi hi' => ?_
    have hlt : i < (met requests).length := by simpa using hi
    rw [List.getElem_map, (nodup_met requests).idxOf_getElem i hlt, List.getElem_range']
    omega
  rw [hnumbers, eraseDups_map htold]
  exact hplaces

/-! ### Fixed maps -/

/-- The last place of a color in a list. -/
structure LastPlace
    (colors : List String)
    (color : String)
    (n : Nat) : Prop where
  here : ∃ c, colors[n]? = some c ∧ Unicode.upper c = Unicode.upper color
  later : ∀ k c, n < k → colors[k]? = some c → Unicode.upper c ≠ Unicode.upper color

theorem LastPlace.eq
    {colors : List String}
    {color : String}
    {n k : Nat}
    (h : LastPlace colors color n)
    (h' : LastPlace colors color k) :
    n = k := by
  obtain ⟨c, hc, hsame⟩ := h.here
  obtain ⟨c', hc', hsame'⟩ := h'.here
  rcases Nat.lt_trichotomy n k with hlt | heq | hlt
  · exact absurd hsame' (h.later k c' hlt hc')
  · exact heq
  · exact absurd hsame (h'.later n c hlt hc)

/-- A color behind others keeps its last place, one further back. -/
theorem LastPlace.cons
    {colors : List String}
    {color : String}
    {n : Nat}
    (h : LastPlace colors color n)
    (c : String) :
    LastPlace (c :: colors) color (n + 1) := by
  refine ⟨by simpa using h.here, fun k d hlt hd => ?_⟩
  obtain ⟨k, rfl⟩ : ∃ i, k = i + 1 := ⟨k - 1, by omega⟩
  exact h.later k d (by omega) (by simpa using hd)

/-- The search from the end finds the last place of a color, if the color is in the list. -/
theorem lastPlace_or_none
    (colors : List String)
    (color : String) :
    (∃ n, lastIndex? (fun c => Unicode.upper c == Unicode.upper color) colors = some n ∧
      LastPlace colors color n) ∨
    (lastIndex? (fun c => Unicode.upper c == Unicode.upper color) colors = none ∧
      ∀ c ∈ colors, Unicode.upper c ≠ Unicode.upper color) := by
  induction colors with
  | nil =>
      exact .inr ⟨rfl, by simp⟩
  | cons c colors ih =>
      rw [lastIndex?]
      rcases ih with ⟨n, hsome, hlast⟩ | ⟨hnone, hdiffer⟩
      · rw [hsome]
        exact .inl ⟨n + 1, rfl, hlast.cons c⟩
      · rw [hnone]
        by_cases hc : Unicode.upper c = Unicode.upper color
        · refine .inl ⟨0, by simp [hc], ⟨c, rfl, hc⟩, fun k d hlt hd => ?_⟩
          obtain ⟨k, rfl⟩ : ∃ i, k = i + 1 := ⟨k - 1, by omega⟩
          exact hdiffer d (List.mem_of_getElem? (by simpa using hd))
        · refine .inr ⟨by simp [hc], fun d hd => ?_⟩
          rcases List.mem_cons.mp hd with rfl | hd
          · exact hc
          · exact hdiffer d hd

/-- A fixed map finds a color at its last place, unless that is place 0; it never changes. -/
theorem ask_fixed
    (colors : List String)
    (color : String) :
    (∃ n, n ≠ 0 ∧ LastPlace colors color n ∧
      (fixed colors).ask (some color) = (.ok n, fixed colors)) ∨
    ((∀ n, n ≠ 0 → ¬ LastPlace colors color n) ∧ (fixed colors).ask (some color) =
      (.error (.missingColor (Unicode.upper color)), fixed colors)) := by
  unfold ask id? id
  rcases lastPlace_or_none colors color with ⟨n, hsome, hlast⟩ | ⟨hnone, hdiffer⟩
  · cases n with
    | zero =>
        refine .inr ⟨fun k hk hlast' => hk (hlast'.eq hlast), ?_⟩
        simp [hsome]
    | succ n =>
        refine .inl ⟨n + 1, by omega, hlast, ?_⟩
        simp [hsome]
  · refine .inr ⟨fun k _ hlast => ?_, by simp [hnone]⟩
    obtain ⟨c, hc, hsame⟩ := hlast.here
    exact hdiffer c (List.mem_of_getElem? hc) hsame

theorem ask_fixed_snd
    (colors : List String)
    (color : Option String) :
    ((fixed colors).ask color).2 = fixed colors := by
  cases color with
  | none =>
      rfl
  | some color =>
      rcases ask_fixed colors color with ⟨n, -, -, hask⟩ | ⟨-, hask⟩ <;> rw [hask]

/-- Requests leave a fixed map as it is. -/
theorem after_fixed
    (colors : List String)
    (requests : List (Option String)) :
    (fixed colors).after requests = fixed colors := by
  induction requests using List.reverseRecOn with
  | nil =>
      rfl
  | append_singleton requests color ih =>
      rw [after_concat, ih, ask_fixed_snd]

theorem answers_fixed
    (colors : List String)
    (requests : List (Option String)) :
    (fixed colors).answers requests =
      requests.map fun color => ((fixed colors).ask color).1 := by
  induction requests with
  | nil =>
      rfl
  | cons color requests ih =>
      rw [answers, ask_fixed_snd, ih, List.map_cons]

/-- The answer of a fixed map is a number exactly if the last place of the color is that number
and not 0. -/
theorem ask_fixed_eq_ok_iff
    {colors : List String}
    {color : String}
    {n : Nat} :
    ((fixed colors).ask (some color)).1 = .ok n ↔ n ≠ 0 ∧ LastPlace colors color n := by
  rcases ask_fixed colors color with ⟨k, hk, hlast, hask⟩ | ⟨hnone, hask⟩
  · rw [hask, Except.ok.injEq]
    constructor
    · rintro rfl
      exact ⟨hk, hlast⟩
    · rintro ⟨-, hlast'⟩
      exact hlast.eq hlast'
  · rw [hask]
    constructor
    · intro h
      cases h
    · rintro ⟨hn, hlast⟩
      exact absurd hlast (hnone n hn)

theorem ask_fixed_eq_error_iff
    {colors : List String}
    {color : String} :
    ((fixed colors).ask (some color)).1 = .error (.missingColor (Unicode.upper color)) ↔
      ¬ ∃ n, n ≠ 0 ∧ LastPlace colors color n := by
  rcases ask_fixed colors color with ⟨k, hk, hlast, hask⟩ | ⟨hnone, hask⟩
  · rw [hask]
    constructor
    · intro h
      cases h
    · intro h
      exact absurd ⟨k, hk, hlast⟩ h
  · rw [hask]
    constructor
    · rintro - ⟨n, hn, hlast⟩
      exact hnone n hn hlast
    · intro
      rfl

/-! ### All requests -/

/-- A growing map gives out the numbers 1, 2 and so on in the order in which colors are met in
uppercase. It gives every color its uppercase form back, tells two colors apart if their uppercase
forms differ, and never changes a number again. A fixed map never changes. It has a number for a
color if the last place where the list has the color is not place 0, and then it is that place;
otherwise the color is missing. -/
theorem answers_of_requests (requests : List (Option String)) :
    let number := numberIn (met requests)
    empty.answers requests = requests.map (fun color => .ok (number color)) ∧
      ((requests.map number).filter (· ≠ 0)).eraseDups = List.range' 1 (met requests).length ∧
      (empty.after requests).colors = "" :: met requests ∧
      (∀ color, some color ∈ requests → ∀ later,
        (empty.after (requests ++ later)).color? (number (some color)) =
            some (Unicode.upper color) ∧
          (empty.after (requests ++ later)).ask (some color) =
            (.ok (number (some color)), empty.after (requests ++ later))) ∧
      (∀ color other, some color ∈ requests → some other ∈ requests →
        (number (some color) = number (some other) ↔
          Unicode.upper color = Unicode.upper other)) ∧
      ∀ colors, (fixed colors).after requests = fixed colors ∧
        (fixed colors).answers requests =
          requests.map (fun color => ((fixed colors).ask color).1) ∧
        ((fixed colors).ask none).1 = .ok 0 ∧
        ∀ color,
          (∀ n, ((fixed colors).ask (some color)).1 = .ok n ↔
            n ≠ 0 ∧ LastPlace colors color n) ∧
          (((fixed colors).ask (some color)).1 = .error (.missingColor (Unicode.upper color)) ↔
            ¬ ∃ n, n ≠ 0 ∧ LastPlace colors color n) := by
  refine ⟨answers_empty requests, eraseDups_numbers requests, by rw [after_empty]; rfl,
    fun color hcolor later => ?_, fun color other hcolor _ => ?_, fun colors =>
      ⟨after_fixed colors requests, answers_fixed colors requests, rfl, fun color =>
        ⟨fun n => ask_fixed_eq_ok_iff, ask_fixed_eq_error_iff⟩⟩⟩
  · have hmem : some color ∈ requests ++ later :=
      List.mem_append_left later hcolor
    have hplace : (met (requests ++ later)).idxOf (Unicode.upper color) <
        (met (requests ++ later)).length :=
      List.idxOf_lt_length_iff.mpr (mem_met hmem)
    rw [← numberIn_met_append hcolor later, after_empty, ask_growing, if_pos (mem_met hmem)]
    refine ⟨?_, rfl⟩
    simp [color?, colors, numberIn, List.getElem?_eq_getElem hplace]
  · simp only [numberIn, Nat.add_right_cancel_iff]
    exact List.idxOf_inj (mem_met hcolor)

/-- Red is asked for twice, in two ways of writing it, and a third color comes later. The fixed map
has its first color again at place 2, and a color of which place 0 is the last place. -/
theorem answers_of_requests_reds :
    let requests := [none, some "#ff0000", some "#00FF00", some "#FF0000"]
    let map := empty.after (requests ++ [some "#0000ff"])
    let colors := fixed ["#abcdef", "#000000", "#ABCDEF"]
    empty.answers requests = [.ok 0, .ok 1, .ok 2, .ok 1] ∧
      map.color? 1 = some "#FF0000" ∧ map.ask (some "#ff0000") = (.ok 1, map) ∧
      (colors.ask (some "#aBcDeF")).1 = .ok 2 ∧
      ((fixed ["#000000", "#abcdef"]).ask (some "#000000")).1 =
        .error (.missingColor "#000000") := by
  intro requests map colors
  have hmet : met requests = ["#FF0000", "#00FF00"] := by
    decide +kernel
  have hupper : Unicode.upper "#000000" = "#000000" := by
    decide +kernel
  obtain ⟨hanswers, -, -, hkept, -, hfixed⟩ := answers_of_requests requests
  have hnumbers : requests.map (numberIn (met requests)) = [0, 1, 2, 1] := by
    rw [hmet]
    decide +kernel
  have hred : numberIn (met requests) (some "#ff0000") = 1 := by
    rw [hmet]
    decide +kernel
  obtain ⟨hcolor, hask⟩ := hkept "#ff0000" (by decide) [some "#0000ff"]
  rw [hred] at hcolor hask
  refine ⟨?_, hcolor.trans (by decide +kernel), hask, ?_, ?_⟩
  · have hok := congrArg (List.map (Except.ok : Nat → Except Error Nat)) hnumbers
    rw [List.map_map] at hok
    exact hanswers.trans hok
  · refine ((hfixed _).2.2.2 "#aBcDeF").1 2 |>.mpr ⟨by decide, ⟨"#ABCDEF", rfl, ?_⟩, ?_⟩
    · decide +kernel
    · intro k c hlt hc
      have hnone : k ≥ 3 := hlt
      rw [List.getElem?_eq_none hnone] at hc
      cases hc
  · rw [← hupper]
    refine ((hfixed _).2.2.2 "#000000").2.mpr ?_
    rintro ⟨n, hn, ⟨c, hc, hsame⟩, -⟩
    have hlt : n < 2 := (List.getElem?_eq_some_iff.mp hc).1
    obtain rfl : n = 1 := by omega
    obtain rfl : "#abcdef" = c := Option.some.inj hc
    revert hsame
    decide +kernel

end ColorMap
end LineScopes
