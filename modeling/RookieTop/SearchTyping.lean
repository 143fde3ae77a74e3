import RookieTop.Lives
import RookieTop.Selection

/-! The screen on which the search is typed. Every key on it edits one text, until Enter takes the
text for the search or Escape drops it. -/
namespace RookieTop.SearchTyping

open CLib Trace Sys ProcessList CollectOverview Explorer TerminalInput App RunInteractive Passes
  Selection

def typeKey (text : Bytes) (key : Int) : Bytes :=
  if key = 8 ∨ key = 127 then text.dropLast
  else if 32 ≤ key ∧ key ≤ 126 ∧ text.length < 63 then text ++ [key.toNat.toUInt8]
  else text

/-- A text that fits its buffer together with its terminator, and that nothing in it ends early. -/
structure Fits (text : Bytes) : Prop where
  length : text.length < processSearchMax
  printed : ∀ b ∈ text, isprint b = true

def edits (key : Int) : Bool := key ≠ inputEnter && key ≠ inputEscape

theorem Fits.nil : Fits [] := ⟨by decide, fun _ hb => absurd hb List.not_mem_nil⟩

theorem Fits.copy {text : Bytes} (h : Fits text) : snprintf processSearchMax text = text := by
  have hlength := h.length
  unfold processSearchMax at hlength
  exact List.take_of_length_le (by unfold processSearchMax; omega)

theorem isprint_key {key : Int} :
    (0 ≤ key ∧ key ≤ 255 ∧ isprint key.toNat.toUInt8 = true) ↔ 32 ≤ key ∧ key ≤ 126 := by
  have hbyte : 0 ≤ key → key ≤ 255 → key.toNat.toUInt8.toNat = key.toNat := fun hpos hle => by
    simp only [Nat.toUInt8, UInt8.toNat_ofNat']
    omega
  have hprint : ∀ b : UInt8, isprint b = true ↔ 32 ≤ b.toNat ∧ b.toNat ≤ 126 := fun b => by
    simp [isprint, UInt8.le_iff_toNat_le]
  constructor
  · rintro ⟨hpos, hle, hkey⟩
    rw [hprint, hbyte hpos hle] at hkey
    omega
  · rintro ⟨hlow, hhigh⟩
    rw [hprint, hbyte (by omega) (by omega)]
    omega

theorem Fits.typeKey {text : Bytes} (h : Fits text) (key : Int) : Fits (typeKey text key) := by
  unfold SearchTyping.typeKey
  split_ifs with hback hprint
  · refine ⟨?_, fun b hb => h.printed b (List.mem_of_mem_dropLast hb)⟩
    have hlength := h.length
    rw [List.length_dropLast]
    omega
  · obtain ⟨-, -, hkey⟩ := isprint_key.mpr ⟨hprint.1, hprint.2.1⟩
    constructor
    · rw [List.length_append, List.length_singleton]
      unfold processSearchMax
      omega
    · intro b hb
      rcases List.mem_append.mp hb with hb | hb
      · exact h.printed b hb
      · rw [List.mem_singleton.mp hb]
        exact hkey
  · exact h

theorem Fits.typed {text : Bytes} (h : Fits text) (keys : List Int) :
    Fits (keys.foldl SearchTyping.typeKey text) := by
  induction keys generalizing text with
  | nil => exact h
  | cons key keys ih => exact ih (h.typeKey key)

theorem editProcessSearch_eq (state : AppState) (key : Int) :
    editProcessSearch state key =
      { state with searchDraft := typeKey state.searchDraft key } := by
  unfold editProcessSearch typeKey
  dsimp only
  by_cases hback : key = 8 ∨ key = 127
  · rw [if_pos hback, if_pos hback]
    split_ifs with hlength
    · rw [List.dropLast_eq_take]
    · have hnil : state.searchDraft = [] := List.length_eq_zero_iff.mp (by omega)
      rw [hnil, List.dropLast_nil, ← hnil]
  · rw [if_neg hback, if_neg hback]
    have hsame : (0 ≤ key ∧ key ≤ 255 ∧ isprint key.toNat.toUInt8 = true ∧
        state.searchDraft.length + 1 < processSearchMax) ↔
          32 ≤ key ∧ key ≤ 126 ∧ state.searchDraft.length < 63 := by
      have hroom : state.searchDraft.length + 1 < processSearchMax ↔
          state.searchDraft.length < 63 := by
        unfold processSearchMax
        omega
      have hprint := @isprint_key key
      rw [hroom]
      tauto
    simp only [hsame]
    split_ifs <;> rfl

theorem searchKey_edits {key : Int} (h : edits key = true) (state : AppState) :
    searchKey state key = { state with searchDraft := typeKey state.searchDraft key } := by
  unfold edits at h
  simp only [Bool.and_eq_true, decide_eq_true_eq] at h
  unfold searchKey
  rw [if_neg h.1, if_neg h.2, editProcessSearch_eq]

theorem foldl_searchKey {keys : List Int} (h : ∀ key ∈ keys, edits key = true) (state : AppState) :
    keys.foldl searchKey state =
      { state with searchDraft := keys.foldl typeKey state.searchDraft } := by
  induction keys generalizing state with
  | nil => rfl
  | cons key keys ih =>
    rw [List.foldl_cons, searchKey_edits (h key (by simp)), ih fun k hk => h k (by simp [hk])]
    rfl

structure Away (state state' : AppState) : Prop where
  search : state'.search = state.search
  screen : state'.screen ≠ .processSearch

theorem Away.rfl {state : AppState} (h : state.screen ≠ .processSearch) : Away state state :=
  ⟨Eq.refl _, h⟩

theorem Away.trans {a b c : AppState} (hab : Away a b) (hbc : Away b c) : Away a c :=
  ⟨hbc.search.trans hab.search, hbc.screen⟩

inductive Leads (state : AppState) (key : Int) (result : AppState) : Prop where
  | away (away : Away state result)
  | begins (slash : key = keyOf '/') (begun : result = beginProcessSearch state)

variable (env : Env)

section Actions

variable {state : AppState} (hscreen : state.screen ≠ .processSearch)

theorem openSelectedDetail_away (row : ProcessRow) {screen : Screen}
    (hopens : screen ≠ .processSearch) (n : Nat) :
    Away state ((openSelectedDetail env state row screen).value n) := by
  obtain ⟨detail, notice, opened, heq, hopened⟩ := openSelectedDetail_eq env state row screen n
  rw [heq]
  refine ⟨rfl, fun hsearch => ?_⟩
  rcases hopened with h | h
  · exact hopens (h.symm.trans hsearch)
  · cases h.symm.trans hsearch

theorem openConfirmFromDetail_away (force : Bool) (n : Nat) :
    Away state ((openConfirmFromDetail env state force).value n) := by
  obtain ⟨detail, notice, opened, heq, hopened⟩ := openConfirmFromDetail_eq env state force n
  rw [heq]
  refine ⟨rfl, fun hsearch => ?_⟩
  rcases hopened with h | h
  · have := h.symm.trans hsearch
    cases force <;> cases this
  · cases h.symm.trans hsearch

theorem selectAt_search (rows : List ProcessRow) (i : Nat) :
    (selectAt state rows i).search = state.search := by
  obtain ⟨selected, pid, starttime, heq⟩ := selectAt_eq state rows i
  rw [heq]

theorem alignSelection_search (rows : List ProcessRow) :
    (alignSelection state rows).search = state.search := by
  obtain ⟨selected, pid, starttime, heq⟩ := alignSelection_eq state rows
  rw [heq]

include hscreen

theorem detailKey_away (key : Int) (n : Nat) : Away state ((detailKey env state key).value n).1 := by
  unfold detailKey
  split_ifs
  · exact ⟨rfl, fun h => by cases h⟩
  · exact openConfirmFromDetail_away env false n
  · exact openConfirmFromDetail_away env true n
  · exact ⟨rfl, fun h => by cases h⟩
  · exact Away.rfl hscreen

theorem processLearnKey_away (key : Int) (n : Nat) :
    Away state ((processLearnKey env state key).value n).1 := by
  unfold processLearnKey
  split_ifs
  · exact openConfirmFromDetail_away env false n
  · exact openConfirmFromDetail_away env true n
  · exact ⟨rfl, fun h => by cases h⟩
  · exact Away.rfl hscreen

theorem confirmKey_away (force : Bool) (key : Int) (n : Nat) :
    Away state ((confirmKey env force state key).value n).1 := by
  unfold confirmKey
  split_ifs
  · obtain ⟨notice, hstate⟩ := handleSignalConfirm_state env state force n
    rw [hstate]
    exact ⟨rfl, fun h => by cases h⟩
  · exact ⟨rfl, fun h => by cases h⟩
  · exact Away.rfl hscreen

theorem overviewKey_away (key : Int) : Away state (overviewKey state key) := by
  unfold overviewKey
  split_ifs
  · exact ⟨rfl, fun h => by cases h⟩
  · exact ⟨rfl, fun h => by cases h⟩
  · exact Away.rfl hscreen

theorem learnMenuKey_away
    (hreturn : state.returnScreen = .overview ∨ state.returnScreen = .processes) (key : Int) :
    Away state (learnMenuKey state key) := by
  unfold learnMenuKey
  split_ifs
  · exact ⟨rfl, hscreen⟩
  · exact ⟨rfl, hscreen⟩
  · exact ⟨rfl, fun h => by cases h⟩
  · refine ⟨rfl, fun h => ?_⟩
    rcases hreturn with hback | hback <;> exact absurd (hback.symm.trans h) (by decide)
  · exact Away.rfl hscreen

theorem learnTopicKey_away (key : Int) : Away state (learnTopicKey state key) := by
  unfold learnTopicKey
  split_ifs
  · exact ⟨rfl, hscreen⟩
  · exact ⟨rfl, hscreen⟩
  · exact ⟨rfl, fun h => by cases h⟩
  · exact Away.rfl hscreen

theorem processesKey_leads (rows : List ProcessRow) (key : Int) (n : Nat) :
    Leads state key ((processesKey env state rows key).value n) := by
  have hpress := processesKey_press env state rows key
  generalize processesKey env state rows key = x at hpress ⊢
  cases hpress with
  | arrow i _ =>
    refine .away ⟨selectAt_search rows i, ?_⟩
    rw [Calls.value_pure, (selectAt_screens state rows i).1]
    exact hscreen
  | opens screen mem =>
    have hopens : screen ≠ .processSearch := by
      rintro rfl
      simp [opens] at mem
    unfold openAt
    cases rows[state.selected]? with
    | none => exact .away (Away.rfl hscreen)
    | some row => exact .away (openSelectedDetail_away env row hopens n)
  | search slash => exact .begins slash rfl
  | sort _ => exact .away ⟨rfl, hscreen⟩
  | menu => exact .away ⟨rfl, fun h => by cases h⟩
  | back => exact .away ⟨rfl, fun h => by cases h⟩
  | none => exact .away (Away.rfl hscreen)

end Actions

/-- The pass entered the screen: from the list, by its key, with the search to start from. -/
structure Begins (state : AppState) (pass : Pass) (entered : AppState) : Prop where
  list : state.screen = .processes
  key : pass.key = keyOf '/'
  search : entered.search = state.search
  begun : pass.state = beginProcessSearch entered

section Pass

variable {state : AppState}

theorem searchPass_typed (hscreen : state.screen = .processSearch) (consumed n : Nat) :
    let pass := (loopPass env state consumed).value n
    pass.state = searchKey state pass.key ∧ pass.kills = [] ∧ pass.failed = false := by
  simp only [loopPass, screenPass, hscreen, plainPass, Calls.value_bind, Calls.value_pure, and_self]

theorem noticeSampled_search (sampled : Option (List ProcessRow)) :
    (noticeSampled state sampled).search = state.search := by
  obtain ⟨notice, heq⟩ := noticeSampled_eq state sampled
  rw [heq]

theorem processesPass_away (hlist : state.screen = .processes) (term : TerminalSize)
    (consumed n : Nat) :
    Away state ((processesPass env term state consumed).value n).state ∨
      ∃ entered, Begins state ((processesPass env term state consumed).value n) entered := by
  unfold processesPass showProcesses
  simp only [Calls.value_bind, Calls.value_pure]
  generalize (sampleProcessRows env).value n = sampled
  generalize shownRows env (noticeSampled state sampled) (sampled.getD []) = rows
  have hsearch : (alignSelection (noticeSampled state sampled) rows).search = state.search :=
    (alignSelection_search rows).trans (noticeSampled_search sampled)
  have hscreen : (alignSelection (noticeSampled state sampled) rows).screen = .processes := by
    rw [(alignSelection_screens _ rows).1, (noticeSampled_screens state sampled).1, hlist]
  have haligned : Away state (alignSelection (noticeSampled state sampled) rows) :=
    ⟨hsearch, by rw [hscreen]; decide⟩
  generalize alignSelection (noticeSampled state sampled) rows = aligned at hsearch haligned ⊢
  generalize (prompt env term (.processes rows (sampled.getD []).length aligned) consumed).value _ =
    answer
  generalize (prompt env term (.processes rows (sampled.getD []).length aligned) consumed).after _ = t
  cases processesKey_leads env haligned.screen rows answer.2.1 t with
  | away away => exact Or.inl (haligned.trans away)
  | begins slash begun => exact Or.inr ⟨aligned, hlist, slash, hsearch, begun⟩

theorem detailPass_away (hscreen : state.screen ≠ .processSearch) {draw : ProcessDetail → Drawing}
    {act : AppState → Int → Calls (AppState × List KillCall)}
    (hact : ∀ refreshed : AppState, refreshed.screen ≠ .processSearch → ∀ key t,
      Away refreshed ((act refreshed key).value t).1)
    (term : TerminalSize) (consumed n : Nat) :
    Away state ((detailPass env draw act term state consumed).value n).state := by
  unfold detailPass
  simp only [Calls.value_bind]
  cases hrefresh : (refreshSelectedDetail env state).value n with
  | none => exact ⟨rfl, fun h => by cases h⟩
  | some refreshed =>
    obtain ⟨detail, -, -, -, rfl⟩ := refreshSelectedDetail_some env hrefresh
    have hrefreshed : Away state { state with selectedDetail := detail } := ⟨rfl, hscreen⟩
    exact hrefreshed.trans (hact _ hrefreshed.screen _ _)

theorem overviewPass_away (hscreen : state.screen ≠ .processSearch) (term : TerminalSize)
    (consumed n : Nat) : Away state ((overviewPass env term state consumed).value n).state := by
  unfold overviewPass
  simp only [Calls.value_bind]
  cases hrefresh : (refreshOverview env state).value n with
  | none => exact ⟨rfl, hscreen⟩
  | some refreshed =>
    obtain ⟨view, -, rfl⟩ := refreshOverview_some env hrefresh
    have hrefreshed : Away state { state with
        view := view, viewOk := true, history := historyPush state.history view } := ⟨rfl, hscreen⟩
    exact hrefreshed.trans (overviewKey_away hrefreshed.screen _)

theorem loopPass_away (hsound : Sound state) (hscreen : state.screen ≠ .processSearch)
    (consumed n : Nat) :
    Away state ((loopPass env state consumed).value n).state ∨
      ∃ entered, Begins state ((loopPass env state consumed).value n) entered := by
  have hdetail := fun draw act hact =>
    @detailPass_away env state hscreen draw act hact (env.window n) consumed (n + 1)
  unfold loopPass screenPass
  rw [Calls.value_bind, Calls.value_call, Calls.after_call]
  cases hbefore : state.screen with
  | overview => exact Or.inl (overviewPass_away env hscreen _ consumed _)
  | processes => exact processesPass_away env hbefore _ consumed _
  | processSearch => exact absurd hbefore hscreen
  | detail => exact Or.inl (hdetail _ _ fun _ h key t => detailKey_away env h key t)
  | processLearn => exact Or.inl (hdetail _ _ fun _ h key t => processLearnKey_away env h key t)
  | learnMenu => exact Or.inl (learnMenuKey_away hscreen hsound.returnScreen _)
  | learnTopic => exact Or.inl (learnTopicKey_away hscreen _)
  | confirmTerm => exact Or.inl (hdetail _ _ fun _ h key t => confirmKey_away env h false key t)
  | confirmKill => exact Or.inl (hdetail _ _ fun _ h key t => confirmKey_away env h true key t)

end Pass

/-- The keys that the passes from `m` on have read, up to pass `m + count`. -/
def keysRead (m count : Nat) : List Int :=
  (List.range count).filterMap fun i => (passAt env (m + i)).map Pass.key

theorem keysRead_succ (m count : Nat) :
    keysRead env m (count + 1) =
      keysRead env m count ++ ((passAt env (m + count)).map Pass.key).toList := by
  unfold keysRead
  rw [List.range_succ, List.filterMap_append]
  cases h : (passAt env (m + count)).map Pass.key <;> simp [h]

structure Episode (m n : Nat) (entered : AppState) : Prop where
  before : m < n
  enters : ∃ opening, passAt env m = some opening ∧
    Begins (runInteractive env m).state opening entered
  since : ∀ j, m < j → j ≤ n → (runInteractive env j).state.screen = .processSearch

theorem exists_episode {n : Nat} (h : (runInteractive env n).state.screen = .processSearch) :
    ∃ m entered, Episode env m n entered := by
  obtain ⟨m, hm, hnot, hsince⟩ := @exists_entry
    (fun j => (runInteractive env j).state.screen = .processSearch) n h (fun h => by cases h)
  have hafter := hsince (m + 1) (by omega) hm
  cases hpass : passAt env m with
  | none =>
    rw [(passAt_none env hpass).1] at hafter
    exact absurd hafter hnot
  | some opening =>
    obtain ⟨hvalue, hstate, -⟩ := passAt_some env hpass
    rw [hstate] at hafter
    rcases loopPass_away env (runInteractive_sound env m) hnot (runInteractive env m).consumed
      (runInteractive env m).now with haway | ⟨entered, hbegins⟩
    · rw [← hvalue] at haway
      exact absurd hafter haway.screen
    · rw [← hvalue] at hbegins
      exact ⟨m, entered, hm, ⟨opening, hpass, hbegins⟩, hsince⟩

structure Held (state : AppState) : Prop where
  search : Fits state.search
  draft : state.screen = .processSearch → Fits state.searchDraft

theorem Held.searchKey {state : AppState} (h : Held state) (hscreen : state.screen = .processSearch)
    (key : Int) : Held (searchKey state key) := by
  have hdraft := h.draft hscreen
  unfold RunInteractive.searchKey
  split_ifs
  · refine ⟨?_, fun h => by cases h⟩
    unfold applyProcessSearch
    dsimp only
    rw [hdraft.copy]
    exact hdraft
  · exact ⟨h.search, fun h => by cases h⟩
  · rw [editProcessSearch_eq]
    exact ⟨h.search, fun _ => hdraft.typeKey key⟩

theorem loopPass_held {state : AppState} (hsound : Sound state) (h : Held state)
    (consumed n : Nat) : Held ((loopPass env state consumed).value n).state := by
  by_cases hscreen : state.screen = .processSearch
  · rw [(searchPass_typed env hscreen consumed n).1]
    exact h.searchKey hscreen _
  · rcases loopPass_away env hsound hscreen consumed n with haway | ⟨entered, hbegins⟩
    · exact ⟨haway.search ▸ h.search, fun hsearch => absurd hsearch haway.screen⟩
    · rw [hbegins.begun]
      have hsearch : Fits entered.search := hbegins.search ▸ h.search
      refine ⟨hsearch, fun _ => ?_⟩
      unfold beginProcessSearch
      dsimp only
      rw [hsearch.copy]
      exact hsearch

theorem runInteractive_held (n : Nat) : Held (runInteractive env n).state := by
  induction n with
  | zero => exact ⟨Fits.nil, fun h => by cases h⟩
  | succ n ih =>
    cases hpass : passAt env n with
    | none =>
      rw [(passAt_none env hpass).1]
      exact ih
    | some pass =>
      obtain ⟨hvalue, hstate, -⟩ := passAt_some env hpass
      rw [hstate, hvalue]
      exact loopPass_held env (runInteractive_sound env n) ih _ _

theorem searchPass_edits {n : Nat} {pass : Pass} (hpass : passAt env n = some pass)
    (hbefore : (runInteractive env n).state.screen = .processSearch)
    (hafter : (runInteractive env (n + 1)).state.screen = .processSearch) :
    edits pass.key = true ∧ (runInteractive env (n + 1)).state =
      { (runInteractive env n).state with
        searchDraft := typeKey (runInteractive env n).state.searchDraft pass.key } := by
  obtain ⟨hvalue, hstate, -⟩ := passAt_some env hpass
  have htyped : pass.state = searchKey (runInteractive env n).state pass.key := by
    rw [hvalue]
    exact (searchPass_typed env hbefore _ _).1
  rw [hstate, htyped] at hafter ⊢
  have hedits : edits pass.key = true := by
    by_contra hleaves
    unfold edits at hleaves
    simp only [Bool.and_eq_true, decide_eq_true_eq, not_and_or, ne_eq, not_not] at hleaves
    rcases hleaves with hkey | hkey
    · rw [hkey] at hafter
      cases hafter
    · rw [hkey] at hafter
      cases hafter
  exact ⟨hedits, searchKey_edits hedits _⟩

theorem keysRead_typed {m count : Nat}
    (hscreen : ∀ i ≤ count, (runInteractive env (m + i)).state.screen = .processSearch) :
    (∀ key ∈ keysRead env m count, edits key = true) ∧
      (runInteractive env (m + count)).state =
        { (runInteractive env m).state with
          searchDraft := (keysRead env m count).foldl typeKey
            (runInteractive env m).state.searchDraft } := by
  induction count with
  | zero => exact ⟨fun key hkey => (List.not_mem_nil hkey).elim, rfl⟩
  | succ count ih =>
    obtain ⟨hkeys, hstate⟩ := ih fun i hi => hscreen i (by omega)
    rw [keysRead_succ]
    cases hpass : passAt env (m + count) with
    | none =>
      rw [Option.map_none, Option.toList_none, List.append_nil, ← Nat.add_assoc,
        (passAt_none env hpass).1]
      exact ⟨hkeys, hstate⟩
    | some pass =>
      obtain ⟨hedits, hafter⟩ := searchPass_edits env hpass (hscreen count (by omega))
        (hscreen (count + 1) le_rfl)
      rw [Option.map_some, Option.toList_some]
      constructor
      · intro key hkey
        rcases List.mem_append.mp hkey with hkey | hkey
        · exact hkeys key hkey
        · rw [List.mem_singleton.mp hkey]
          exact hedits
      · rw [← Nat.add_assoc, hafter, hstate, List.foldl_append]
        rfl

structure Typed (entered : AppState) (keys : List Int) (state : AppState) : Prop where
  draft : state =
    { entered with searchDraft := keys.foldl typeKey entered.search, screen := .processSearch }
  fits : Fits state.searchDraft
  enter : searchKey state inputEnter =
    { state with
      search := state.searchDraft
      selected := 0
      selectedPid := 0
      selectedStarttime := 0
      notice := []
      screen := .processes }
  escape : searchKey state inputEscape = { state with screen := .processes }
  others : ∀ key, edits key = true →
    searchKey state key = { state with searchDraft := typeKey state.searchDraft key }

theorem typed_of_draft {entered : AppState} (h : Fits entered.search) {keys : List Int}
    {state : AppState} (hstate : state =
      { entered with searchDraft := keys.foldl typeKey entered.search, screen := .processSearch }) :
    Typed entered keys state := by
  have hfits : Fits state.searchDraft := by
    rw [hstate]
    exact h.typed keys
  refine ⟨hstate, hfits, ?_, rfl, fun key hkey => searchKey_edits hkey state⟩
  change applyProcessSearch state = _
  unfold applyProcessSearch
  rw [hfits.copy]

theorem beginProcessSearch_eq {state : AppState} (h : Fits state.search) :
    beginProcessSearch state =
      { state with searchDraft := state.search, screen := .processSearch } := by
  unfold beginProcessSearch
  rw [h.copy]

theorem Episode.typed {m n : Nat} {entered : AppState} (h : Episode env m n entered) :
    (∀ key ∈ keysRead env (m + 1) (n - (m + 1)), edits key = true) ∧
      Typed entered (keysRead env (m + 1) (n - (m + 1))) (runInteractive env n).state := by
  obtain ⟨opening, hpass, hbegins⟩ := h.enters
  have hbefore := h.before
  have hsearch : Fits entered.search := hbegins.search ▸ (runInteractive_held env m).search
  have hstart : (runInteractive env (m + 1)).state =
      { entered with searchDraft := entered.search, screen := .processSearch } := by
    rw [(passAt_some env hpass).2.1, hbegins.begun, beginProcessSearch_eq hsearch]
  obtain ⟨hkeys, hstate⟩ := @keysRead_typed env (m + 1) (n - (m + 1)) fun i hi =>
    h.since (m + 1 + i) (by omega) (by omega)
  rw [show m + 1 + (n - (m + 1)) = n by omega, hstart] at hstate
  exact ⟨hkeys, typed_of_draft hsearch hstate⟩

theorem exitAfter_search {pass : Pass} (hfailed : pass.failed = false) (hkey : 0 ≤ pass.key) :
    exitAfter .processSearch pass = none := by
  unfold exitAfter
  rw [if_neg (by simp [hfailed, not_lt.mpr hkey]), if_neg fun h => h.1 rfl]

theorem passAt_exit {n : Nat} {pass : Pass} (h : passAt env n = some pass) :
    (runInteractive env (n + 1)).exit = exitAfter (runInteractive env n).state.screen pass := by
  unfold passAt at h
  rw [runInteractive_succ, step, h]

/-- What is typed on the screen of the search, there and in every run. -/
theorem search_typed (n : Nat) :
    (∀ keys : List Int, (∀ key ∈ keys, edits key = true) →
      Typed (runInteractive env n).state keys
        (keys.foldl searchKey (beginProcessSearch (runInteractive env n).state))) ∧
    (∀ pass : Pass, pass.failed = false → 0 ≤ pass.key → exitAfter .processSearch pass = none) ∧
    ((runInteractive env n).state.screen = .processSearch →
      ∃ m entered, Episode env m n entered ∧
        (∀ key ∈ keysRead env (m + 1) (n - (m + 1)), edits key = true) ∧
        Typed entered (keysRead env (m + 1) (n - (m + 1))) (runInteractive env n).state ∧
        ∀ pass, passAt env n = some pass →
          (runInteractive env (n + 1)).state = searchKey (runInteractive env n).state pass.key ∧
          pass.kills = [] ∧ (0 ≤ pass.key → (runInteractive env (n + 1)).exit = none)) := by
  have hfits := (runInteractive_held env n).search
  refine ⟨fun keys hkeys => typed_of_draft hfits ?_, fun pass => exitAfter_search, fun hscreen => ?_⟩
  · rw [beginProcessSearch_eq hfits, foldl_searchKey hkeys]
  · obtain ⟨m, entered, hepisode⟩ := exists_episode env hscreen
    obtain ⟨hkeys, htyped⟩ := hepisode.typed
    refine ⟨m, entered, hepisode, hkeys, htyped, fun pass hpass => ?_⟩
    obtain ⟨hvalue, hstate, -⟩ := passAt_some env hpass
    obtain ⟨htyped, hkills, hfailed⟩ := searchPass_typed env hscreen
      (runInteractive env n).consumed (runInteractive env n).now
    rw [← hvalue] at htyped hkills hfailed
    refine ⟨hstate.trans htyped, hkills, fun hkey => ?_⟩
    rw [passAt_exit env hpass, hscreen]
    exact exitAfter_search hfailed hkey

/-- `p`, `/`, `a`, `q` and a backspace, typed in a row. -/
example :
    (runInteractive (Lives.lastingMachine.env (Lives.attended [ascii "7"]
      [(0, 112), (0, 47), (0, 97), (0, 113), (0, 127)])) 5).state.searchDraft = ascii "a" := by
  decide +kernel

end RookieTop.SearchTyping
