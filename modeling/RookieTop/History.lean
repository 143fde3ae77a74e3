import RookieTop.App
import RookieTop.CLib.Printf
import Mathlib.Data.List.DropRight

/-! The last samples of two percentages, and their graphs. -/
namespace RookieTop.History

open CLib Trace Sys CollectOverview App

def memmove {α : Type} (values : List α) (target source count : Nat) : List α :=
  values.take target ++ ((values.drop source).take count ++ values.drop (target + count))

/-- Both arrays have `historyMax` entries, of which the first `count` are in use. -/
structure MetricArrays where
  cpu : List ℚ
  memory : List ℚ
  count : Nat

def MetricArrays.zero : MetricArrays :=
  ⟨List.replicate historyMax 0, List.replicate historyMax 0, 0⟩

def MetricArrays.historyPush (h : MetricArrays) (view : Overview) : MetricArrays :=
  if h.count < historyMax then
    { cpu := h.cpu.set h.count view.cpuPercent
      memory := h.memory.set h.count view.memoryPercent
      count := h.count + 1 }
  else
    { cpu := (memmove h.cpu 0 1 (historyMax - 1)).set (historyMax - 1) view.cpuPercent
      memory := (memmove h.memory 0 1 (historyMax - 1)).set (historyMax - 1) view.memoryPercent
      count := h.count }

structure MetricArrays.Sized (h : MetricArrays) : Prop where
  cpu : h.cpu.length = historyMax
  memory : h.memory.length = historyMax
  count : h.count ≤ historyMax

def MetricArrays.held (h : MetricArrays) : MetricHistory :=
  ⟨h.cpu.take h.count, h.memory.take h.count⟩

section Arrays

variable {α : Type} {values : List α} {value : α} {n : Nat}

theorem take_set_self (h : n < values.length) :
    (values.set n value).take (n + 1) = values.take n ++ [value] := by
  rw [List.take_add_one, List.take_set_of_le le_rfl, List.getElem?_set_self h]
  rfl

theorem memmove_set (h : values.length = n + 1) :
    (memmove values 0 1 n).set n value = values.tail ++ [value] := by
  obtain ⟨first, rest, rfl⟩ := List.exists_cons_of_length_eq_add_one h
  rw [List.length_cons, Nat.add_right_cancel_iff] at h
  have hlast : ∃ last, (first :: rest).drop n = [last] := by
    rw [← List.length_eq_one_iff, List.length_drop, List.length_cons]
    omega
  obtain ⟨last, hlast⟩ := hlast
  unfold memmove
  rw [List.take_zero, List.nil_append, Nat.zero_add, hlast, List.drop_one, List.tail_cons,
    List.take_of_length_le h.le, List.set_append_right _ _ h.le, h, Nat.sub_self]
  rfl

theorem memmove_length (h : values.length = n + 1) : (memmove values 0 1 n).length = n + 1 := by
  unfold memmove
  simp only [List.take_zero, List.nil_append, List.length_append, List.length_take,
    List.length_drop]
  omega

end Arrays

theorem historyPush_held {h : MetricArrays} (hsized : h.Sized) (view : Overview) :
    (h.historyPush view).Sized ∧ (h.historyPush view).held = App.historyPush h.held view := by
  have hcpu := hsized.cpu
  have hmemory := hsized.memory
  have hcount := hsized.count
  unfold MetricArrays.historyPush
  by_cases hroom : h.count < historyMax
  · rw [if_pos hroom]
    refine ⟨⟨by simpa using hcpu, by simpa using hmemory, hroom⟩, ?_⟩
    unfold MetricArrays.held App.historyPush pushSample
    dsimp only
    rw [take_set_self (by omega), take_set_self (by omega), if_pos (by simp; omega),
      if_pos (by simp; omega)]
  · rw [if_neg hroom]
    have hfull : h.count = historyMax := by omega
    have hmax : historyMax = historyMax - 1 + 1 := rfl
    refine ⟨⟨?_, ?_, hcount⟩, ?_⟩
    · rw [List.length_set, memmove_length (hcpu.trans hmax)]
      rfl
    · rw [List.length_set, memmove_length (hmemory.trans hmax)]
      rfl
    · unfold MetricArrays.held App.historyPush pushSample
      dsimp only
      rw [memmove_set (hcpu.trans hmax), memmove_set (hmemory.trans hmax), hfull,
        List.take_of_length_le hcpu.le, List.take_of_length_le hmemory.le, if_neg (by omega),
        if_neg (by omega), List.take_of_length_le (by simp; omega),
        List.take_of_length_le (by simp; omega)]

theorem pushSample_rtake (values : List ℚ) (value : ℚ) :
    pushSample (values.rtake historyMax) value = (values ++ [value]).rtake historyMax := by
  have hmax : historyMax = historyMax - 1 + 1 := rfl
  unfold pushSample List.rtake
  rw [List.length_drop, List.length_append, List.length_singleton]
  split_ifs with hroom
  · have hshort : values.length < historyMax := by omega
    rw [Nat.sub_eq_zero_of_le hshort.le, Nat.sub_eq_zero_of_le (by omega : values.length + 1 ≤ _),
      List.drop_zero, List.drop_zero]
  · have hnext : values.length + 1 - historyMax = values.length - historyMax + 1 := by omega
    rw [hnext, List.drop_append_of_le_length (by omega), List.tail_drop]

theorem foldl_historyPush (views : List Overview) :
    views.foldl App.historyPush ⟨[], []⟩ =
      ⟨(views.map Overview.cpuPercent).rtake historyMax,
        (views.map Overview.memoryPercent).rtake historyMax⟩ := by
  induction views using List.reverseRecOn with
  | nil => rfl
  | append_singleton views view ih =>
    rw [List.foldl_append, ih, List.map_append, List.map_append]
    unfold List.foldl App.historyPush
    dsimp only
    rw [pushSample_rtake, pushSample_rtake]
    rfl

def arraysOf (views : List Overview) : MetricArrays :=
  views.foldl MetricArrays.historyPush MetricArrays.zero

theorem zero_sized : MetricArrays.zero.Sized :=
  ⟨List.length_replicate, List.length_replicate, Nat.zero_le _⟩

theorem arraysOf_held (views : List Overview) :
    (arraysOf views).Sized ∧ (arraysOf views).held = views.foldl App.historyPush ⟨[], []⟩ := by
  unfold arraysOf
  induction views using List.reverseRecOn with
  | nil => exact ⟨zero_sized, rfl⟩
  | append_singleton views view ih =>
    rw [List.foldl_append, List.foldl_append, ← ih.2]
    exact historyPush_held ih.1 view

theorem arraysOf_count (views : List Overview) :
    (arraysOf views).count = min views.length historyMax := by
  obtain ⟨hsized, hheld⟩ := arraysOf_held views
  have hcpu := congrArg (fun h : MetricHistory => h.cpu.length) hheld
  rw [foldl_historyPush] at hcpu
  unfold MetricArrays.held at hcpu
  dsimp only at hcpu
  rw [List.length_take, hsized.cpu, List.rtake, List.length_drop, List.length_map] at hcpu
  have hcount := hsized.count
  omega

theorem getElem?_held {values kept : List ℚ} {count i : Nat} (h : values.take count = kept.rtake count)
    (hi : i < count) : values[i]? = kept[kept.length - count + i]? := by
  have hat : (values.take count)[i]? = (kept.rtake count)[i]? := by rw [h]
  rw [List.getElem?_take_of_lt hi, List.rtake, List.getElem?_drop] at hat
  exact hat

variable (env : Env)

/-- One call, begun at this time. A failed one leaves the history alone. -/
def refresh (state : AppState) (time : Nat) : AppState :=
  ((refreshOverview env state).value time).getD { state with viewOk := false }

def samples (times : List Nat) : List Overview :=
  times.filterMap fun time => (collectOverview env).value time

theorem refresh_history (state : AppState) (time : Nat) :
    (refresh env state time).history =
      ((collectOverview env).value time).elim state.history (App.historyPush state.history) := by
  unfold refresh refreshOverview
  simp only [Calls.value_bind]
  cases (collectOverview env).value time <;> rfl

theorem foldl_refresh_history (times : List Nat) (state : AppState) :
    (times.foldl (refresh env) state).history =
      (samples env times).foldl App.historyPush state.history := by
  unfold samples
  induction times generalizing state with
  | nil => rfl
  | cons time times ih =>
    rw [List.foldl_cons, ih, refresh_history, List.filterMap_cons]
    cases (collectOverview env).value time <;> rfl

/-- What is used of the rounding of doubles. -/
structure Rounding where
  round : ℚ → ℚ
  mono : Monotone round
  /-- Whole numbers that fit are kept. -/
  whole : ∀ n : Nat, n ≤ 2 ^ 53 → round n = n

def levels : Bytes := ascii " .:-=+*#%@"

/-- The terminator of the table counts in its size. -/
def maxLevel : Nat := levels.length + 1 - 2

def ansiReset : Bytes := 27 :: ascii "[0m"
def ansiDim : Bytes := 27 :: ascii "[2m"

def ansi (useColor : Bool) (code : Bytes) : Bytes := if useColor then code else []

def clamp (value : ℚ) : ℚ :=
  let value := if value < 0 then 0 else value
  if 100 < value then 100 else value

/-- The cast to `size_t` cuts off the fraction. -/
def level (r : Rounding) (value : ℚ) : Nat :=
  (r.round (r.round (clamp value * maxLevel) / 100)).floor.toNat

def cell (r : Rounding) (value : ℚ) : UInt8 := levels.getD (level r value) 0

def shownOf (count width : Nat) : Nat := if count < width then count else width

def padding (count width : Nat) : Bytes := List.replicate (width - shownOf count width) 46

def cells (r : Rounding) (values : List ℚ) (count width : Nat) : Bytes :=
  let start := count - shownOf count width
  (List.range' start (count - start)).map fun i => cell r (values.getD i 0)

def printHistory (r : Rounding) (useColor : Bool) (label : Bytes) (values : List ℚ)
    (count width : Nat) (color : Bytes) : Bytes :=
  padRight 7 label ++ ascii " " ++ ansi useColor ansiDim ++ padding count width ++
    ansi useColor ansiReset ++ ansi useColor color ++ cells r values count width ++
    ansi useColor ansiReset

theorem clamp_bounds (value : ℚ) : 0 ≤ clamp value ∧ clamp value ≤ 100 := by
  unfold clamp
  dsimp only
  split_ifs with hhigh hlow <;> constructor <;> linarith

theorem scaled_bounds (r : Rounding) (value : ℚ) :
    0 ≤ r.round (r.round (clamp value * maxLevel) / 100) ∧
      r.round (r.round (clamp value * maxLevel) / 100) ≤ 9 := by
  obtain ⟨hlow, hhigh⟩ := clamp_bounds value
  have hmax : (maxLevel : ℚ) = 9 := rfl
  have hzero : r.round 0 = 0 := r.whole 0 (by decide)
  have hnine : r.round 9 = 9 := r.whole 9 (by decide)
  have htop : r.round 900 = 900 := r.whole 900 (by decide)
  have hscaled : 0 ≤ r.round (clamp value * maxLevel) ∧ r.round (clamp value * maxLevel) ≤ 900 := by
    constructor
    · rw [← hzero]
      exact r.mono (by rw [hmax]; linarith)
    · rw [← htop]
      exact r.mono (by rw [hmax]; linarith)
  constructor
  · rw [← hzero]
    exact r.mono (div_nonneg hscaled.1 (by norm_num))
  · rw [← hnine]
    exact r.mono (by linarith [hscaled.2])

theorem level_lt (r : Rounding) (value : ℚ) : level r value < levels.length := by
  have hfloor : (r.round (r.round (clamp value * maxLevel) / 100)).floor < 10 := by
    rw [Rat.floor_lt_iff]
    exact lt_of_le_of_lt (scaled_bounds r value).2 (by norm_num)
  have hlength : levels.length = 10 := by decide
  unfold level
  omega

def Rounding.exact : Rounding := ⟨id, monotone_id, fun _ _ => rfl⟩

example : [0, 49, 100].map (cell Rounding.exact) = ascii " =@" := by decide +kernel

theorem shownOf_eq (count width : Nat) : shownOf count width = min count width := by
  unfold shownOf
  split_ifs <;> omega

theorem cells_eq (r : Rounding) {values : List ℚ} {count : Nat} (hcount : count ≤ values.length)
    (width : Nat) :
    cells r values count width = ((values.take count).rtake width).map (cell r) := by
  have hstart : count - min count width = count - width := by omega
  unfold cells List.rtake
  rw [shownOf_eq, hstart, List.length_take, Nat.min_eq_left hcount, List.drop_take]
  apply List.ext_getElem
  · simp only [List.length_map, List.length_range', List.length_take, List.length_drop]
    omega
  · intro i hi _
    rw [List.length_map, List.length_range'] at hi
    simp only [List.getElem_map, List.getElem_range', List.getElem_take, List.getElem_drop, one_mul]
    rw [List.getD_eq_getElem?_getD, List.getElem?_eq_getElem (by omega), Option.getD_some]

structure ShowsLast (r : Rounding) (useColor : Bool) (label color : Bytes) (values : List ℚ)
    (count width : Nat) : Prop where
  printed : printHistory r useColor label values count width color =
    padRight 7 label ++ ascii " " ++ ansi useColor ansiDim ++
      List.replicate (width - min count width) 46 ++ ansi useColor ansiReset ++
      ansi useColor color ++ ((values.take count).rtake width).map (cell r) ++
      ansi useColor ansiReset
  wide : width - min count width + ((values.take count).rtake width).length = width
  samples : ((values.take count).rtake width).length = min count width

theorem printHistory_shows (r : Rounding) (useColor : Bool) (label color : Bytes)
    {values : List ℚ} {count : Nat} (hcount : count ≤ values.length) (width : Nat) :
    ShowsLast r useColor label color values count width := by
  have hlength : ((values.take count).rtake width).length = min count width := by
    rw [List.rtake, List.length_drop, List.length_take]
    omega
  constructor
  · unfold printHistory padding
    rw [cells_eq r hcount, shownOf_eq]
  · omega
  · exact hlength

structure HoldsLast (views : List Overview) (h : MetricArrays) : Prop where
  count : h.count = min views.length historyMax
  entries : ∀ i < h.count, ∃ view, views[views.length - h.count + i]? = some view ∧
    h.cpu[i]? = some view.cpuPercent ∧ h.memory[i]? = some view.memoryPercent

theorem arraysOf_holdsLast (views : List Overview) : HoldsLast views (arraysOf views) := by
  have hcount := arraysOf_count views
  have hheld := (arraysOf_held views).2
  rw [foldl_historyPush] at hheld
  have hrtake : ∀ values : List ℚ, values.length = views.length →
      values.rtake historyMax = values.rtake (arraysOf views).count := fun values hlength => by
    unfold List.rtake
    rw [hlength, hcount]
    congr 1
    omega
  have hcpu : (arraysOf views).cpu.take (arraysOf views).count =
      (views.map Overview.cpuPercent).rtake (arraysOf views).count := by
    rw [← hrtake _ (List.length_map _)]
    exact congrArg MetricHistory.cpu hheld
  have hmemory : (arraysOf views).memory.take (arraysOf views).count =
      (views.map Overview.memoryPercent).rtake (arraysOf views).count := by
    rw [← hrtake _ (List.length_map _)]
    exact congrArg MetricHistory.memory hheld
  refine ⟨hcount, fun i hi => ?_⟩
  have hindex : views.length - (arraysOf views).count + i < views.length := by omega
  refine ⟨_, List.getElem?_eq_getElem hindex, ?_, ?_⟩
  · rw [getElem?_held hcpu hi, List.length_map, List.getElem?_map, List.getElem?_eq_getElem hindex]
    rfl
  · rw [getElem?_held hmemory hi, List.length_map, List.getElem?_map,
      List.getElem?_eq_getElem hindex]
    rfl

/-- After any calls, some of which may have failed, the arrays hold the last samples. Each graph
shows the last of these that have room, by characters of the table. -/
theorem history_shown (times : List Nat) :
    (times.foldl (refresh env) AppState.initial).history = (arraysOf (samples env times)).held ∧
    HoldsLast (samples env times) (arraysOf (samples env times)) ∧
    (∀ (r : Rounding) (value : ℚ), level r value < levels.length) ∧
    ∀ (r : Rounding) (useColor : Bool) (label color : Bytes) (width : Nat),
      ∀ values ∈ [(arraysOf (samples env times)).cpu, (arraysOf (samples env times)).memory],
        ShowsLast r useColor label color values (arraysOf (samples env times)).count width := by
  obtain ⟨hsized, hheld⟩ := arraysOf_held (samples env times)
  refine ⟨?_, arraysOf_holdsLast _, level_lt, fun r useColor label color width values hvalues => ?_⟩
  · rw [foldl_refresh_history]
    exact hheld.symm
  · apply printHistory_shows
    simp only [List.mem_cons, List.not_mem_nil, or_false] at hvalues
    rcases hvalues with rfl | rfl
    · exact hsized.count.trans hsized.cpu.ge
    · exact hsized.count.trans hsized.memory.ge

end RookieTop.History
