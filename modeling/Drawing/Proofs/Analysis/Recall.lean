import Drawing.Proofs.Analysis.Keys
import Drawing.Proofs.Analysis.Quiet
import Drawing.Proofs.Analysis.Recency

/-!
# `Drawing/Proofs/Analysis/Recall.lean` — what an analyzer remembers is what it would compute

Whatever an analyzer is asked, and in whichever order, an entry of its caches is the answer to a question that it was
asked before (`Analyzer.Recalls`): it stands under the key of that question, and it is what was computed then. That
much needs nothing of keys. That an entry is also the answer to the question it is found for does, and there the two
caches differ:

> **measures are always recalled rightly**, as long as digests tell the contents of layers apart; merges are, if
> moreover no number of the layers that are merged is infinite.

The reason is that a merge hands the layers back, while nothing that is measured is lost where it is written.
-/

namespace Drawing

/-! ## Calls -/

/-- A call of an analyzer. -/
inductive AnalyzerCall (α : Type) where
  | measure (l : Layer α) (width height : Numeral α)
  | summarize (d : Document α)
  | optimize (layers : List (Layer α))
  | clear

/-- The layers that a call is about. -/
def AnalyzerCall.layers {α : Type} : AnalyzerCall α → List (Layer α)
  | measure l _ _ => [l]
  | summarize d => d.layers
  | optimize layers => layers
  | clear => []

/-- The layers that some calls are about. -/
def layersAsked {α : Type} (calls : List (AnalyzerCall α)) : List (Layer α) := calls.flatMap AnalyzerCall.layers

/-- The layers that are to be merged in a call. -/
def AnalyzerCall.merged {α : Type} : AnalyzerCall α → List (Layer α)
  | optimize layers => layers
  | _ => []

/-- The layers that are to be merged in some calls. -/
def layersMerged {α : Type} (calls : List (AnalyzerCall α)) : List (Layer α) := calls.flatMap AnalyzerCall.merged

/-- A digest that tells the contents of some layers apart. -/
def TellsApart {α : Type} [DecimalText α] (digest : String → String) (layers : Set (Layer α)) : Prop :=
  ∀ l ∈ layers, ∀ m ∈ layers, digest l.contents = digest m.contents → l.contents = m.contents

theorem TellsApart.mono {α : Type} [DecimalText α] {digest : String → String} {s t : Set (Layer α)}
    (h : TellsApart digest t) (hst : s ⊆ t) : TellsApart digest s :=
  fun l hl m hm => h l (hst hl) m (hst hm)

theorem tellsApart_of_eq {α : Type} [DecimalText α] {digest : String → String} {s : Set (Layer α)} (text : String)
    (h : ∀ l ∈ s, l.contents = text) : TellsApart digest s :=
  fun l hl m hm _ => (h l hl).trans (h m hm).symm

/-- A layer that some data is read as. -/
def Layer.IsRead {α : Type} [Scalar α] (l : Layer α) : Prop := ∃ v, Layer.read v = .valid l

namespace Analyzer

section

variable {α : Type} [Scalar α] [DecimalText α]

/-- The analyzer after a call. -/
def call (a : Analyzer α) : AnalyzerCall α → Analyzer α
  | .measure l width height => (a.measure l width height).2
  | .summarize d => (a.summarize d).2
  | .optimize layers => (a.optimize layers).2
  | .clear => a.clear

/-- The analyzer after some calls, the first of them made first. -/
def run (a : Analyzer α) (calls : List (AnalyzerCall α)) : Analyzer α := calls.foldl call a

end

end Analyzer

/-! ## Entries -/

namespace Cache

variable {β : Type} {c c' : Cache β} {key : String} {value : β} {e : String × β}

theorem mem_of_get {found : Option β} (hget : c.get key = (found, c')) (h : e ∈ c'.entries) : e ∈ c.entries := by
  unfold get at hget
  split at hget
  · next value hlookup =>
    obtain ⟨-, rfl⟩ := Prod.mk.inj hget
    rcases mem_touch h with rfl | ⟨-, he⟩
    · exact Table.mem_of_get? hlookup
    · exact he
  · obtain ⟨-, rfl⟩ := Prod.mk.inj hget
    exact h

theorem mem_of_get_some (hget : c.get key = (some value, c')) : (key, value) ∈ c.entries := by
  unfold get at hget
  split at hget
  · next found hlookup =>
    obtain ⟨hfound, -⟩ := Prod.mk.inj hget
    exact Option.some.inj hfound ▸ Table.mem_of_get? hlookup
  · exact nomatch (Prod.mk.inj hget).1

theorem mem_of_put (h : e ∈ (c.put key value).entries) : e = (key, value) ∨ e ∈ c.entries :=
  (mem_touch (List.mem_of_mem_drop h)).imp_right And.right

theorem lookup_touch (key : String) (value : β) (entries : List (String × β)) :
    (touch key value entries).lookup key = some value := by
  unfold touch
  rw [List.lookup_append, List.lookup_eq_none_iff.mpr]
  · simp
  · intro e he
    exact bne_comm.trans (List.mem_filter.mp he).2

theorem get_again (hget : c.get key = (some value, c')) : (c'.get key).1 = some value := by
  unfold get at hget
  split at hget
  · next found hlookup =>
    obtain ⟨hfound, rfl⟩ := Prod.mk.inj hget
    obtain rfl := Option.some.inj hfound
    unfold get
    dsimp only
    rw [lookup_touch]
  · exact absurd (Prod.mk.inj hget).1.symm (Option.some_ne_none value)

/-- What was put last is found. -/
theorem get_put (c : Cache β) (key : String) (value : β) : ((c.put key value).get key).1 = some value := by
  have hkey : key ∈ (c.put key value).keys := by
    obtain ⟨n, hn⟩ := Nat.exists_eq_succ_of_ne_zero c.capacity_pos.ne'
    rw [keys_put, hn, List.take_succ_cons]
    exact List.mem_cons_self
  obtain ⟨found, hfound⟩ := Option.isSome_iff_exists.mp (isSome_lookup_iff.mpr hkey)
  rcases mem_touch (List.mem_of_mem_drop (Table.mem_of_get? hfound)) with heq | ⟨hne, -⟩
  · obtain rfl := (Prod.mk.inj heq).2
    rw [get, hfound]
  · exact absurd rfl hne

end Cache

/-! ## What is remembered -/

/-- The accounts of some layers of a document by what they measure. -/
def Document.accountsOf {α : Type} [Scalar α] (d : Document α) (layers : List (Layer α)) :
    Except (Fault α) (List (LayerSummary α)) :=
  layers.mapM fun l => do
    return .ofMeasures d l (← l.measure (.whole d.canvas.width) (.whole d.canvas.height))

namespace Analyzer

section

variable {α : Type} [Scalar α] [DecimalText α]

/-- An analyzer that remembers no merges but those of some layers. -/
structure RecallsMerges (a : Analyzer α) (threshold : α) (merged : Set (Layer α)) : Prop where
  digest_eq : a.digest = shortDigest
  threshold_eq : a.threshold = threshold
  optimizations : ∀ e ∈ a.optimizations.entries, ∃ layers, (∀ l ∈ layers, l ∈ merged) ∧
    e.1 = a.optimizationKey layers ∧ e.2 = optimizeLayers threshold layers

/-- An analyzer that remembers nothing but its answers to questions about some layers. -/
structure Recalls (a : Analyzer α) (threshold : α) (asked : Set (Layer α)) : Prop
    extends a.RecallsMerges threshold asked where
  measures : ∀ e ∈ a.measures.entries, ∃ l ∈ asked, ∃ width height,
    e.1 = a.measureKey l width height ∧ l.measure width height = .ok e.2

variable {a : Analyzer α} {threshold : α} {asked : Set (Layer α)} {l : Layer α} {width height : Numeral α}

theorem recalls_of_create {catalog : Catalog α} {capacity : Numeral α}
    (h : create catalog capacity threshold = .ok a) (asked : Set (Layer α)) : a.Recalls threshold asked := by
  have hempty {β : Type} {c : Cache β} (h : Cache.create capacity = .ok c) : c.entries = [] := by
    unfold Cache.create at h
    split_ifs at h
    exact Except.ok.inj h ▸ rfl
  obtain ⟨measures, hmeasures, h⟩ := bind_eq_ok_iff.mp h
  obtain ⟨optimizations, hoptimizations, h⟩ := bind_eq_ok_iff.mp h
  obtain rfl := pure_eq_ok_iff.mp h
  refine ⟨⟨rfl, rfl, ?_⟩, ?_⟩
  · rw [hempty hoptimizations]
    exact List.forall_mem_nil _
  · rw [hempty hmeasures]
    exact List.forall_mem_nil _

/-! A question leaves its answer, if it leaves anything. -/

theorem measure_kept (a : Analyzer α) (l : Layer α) (width height : Numeral α) :
    ∃ measures, (a.measure l width height).2 = { a with measures } := by
  unfold measure
  dsimp only
  split
  · exact ⟨_, rfl⟩
  · split <;> exact ⟨_, rfl⟩

theorem summarizeLayers_kept (a : Analyzer α) (d : Document α) (layers : List (Layer α)) :
    ∃ measures, (a.summarizeLayers d layers).2 = { a with measures } := by
  induction layers generalizing a with
  | nil => exact ⟨a.measures, rfl⟩
  | cons l rest ih =>
    obtain ⟨measures, hmeasured⟩ := a.measure_kept l (.whole d.canvas.width) (.whole d.canvas.height)
    unfold summarizeLayers
    split
    · next fault b hb =>
      rw [hb] at hmeasured
      exact ⟨measures, hmeasured⟩
    · next m b hb =>
      rw [hb] at hmeasured
      obtain rfl : b = { a with measures } := hmeasured
      exact ih _

theorem optimize_kept (a : Analyzer α) (layers : List (Layer α)) :
    ∃ optimizations, (a.optimize layers).2 = { a with optimizations } := by
  unfold optimize
  dsimp only
  split <;> exact ⟨_, rfl⟩

namespace RecallsMerges

variable {merged : Set (Layer α)}

theorem mono {others : Set (Layer α)} (h : a.RecallsMerges threshold merged) (hsub : merged ⊆ others) :
    a.RecallsMerges threshold others where
  digest_eq := h.digest_eq
  threshold_eq := h.threshold_eq
  optimizations e he := by
    obtain ⟨layers, hlayers, hoptimize⟩ := h.optimizations e he
    exact ⟨layers, fun l hl => hsub (hlayers l hl), hoptimize⟩

theorem withMeasures (h : a.RecallsMerges threshold merged) (measures : Cache (LayerMeasures α)) :
    ({ a with measures } : Analyzer α).RecallsMerges threshold merged :=
  ⟨h.digest_eq, h.threshold_eq, h.optimizations⟩

theorem measure (h : a.RecallsMerges threshold merged) (l : Layer α) (width height : Numeral α) :
    (a.measure l width height).2.RecallsMerges threshold merged := by
  obtain ⟨measures, hkept⟩ := a.measure_kept l width height
  rw [hkept]
  exact h.withMeasures measures

theorem summarizeLayers (h : a.RecallsMerges threshold merged) (d : Document α) (layers : List (Layer α)) :
    (a.summarizeLayers d layers).2.RecallsMerges threshold merged := by
  obtain ⟨measures, hkept⟩ := a.summarizeLayers_kept d layers
  rw [hkept]
  exact h.withMeasures measures

theorem optimize (h : a.RecallsMerges threshold merged) {layers : List (Layer α)} (hlayers : ∀ l ∈ layers, l ∈ merged) :
    (a.optimize layers).2.RecallsMerges threshold merged := by
  unfold Analyzer.optimize
  dsimp only
  split
  · next o optimizations hget =>
    exact ⟨h.digest_eq, h.threshold_eq, fun e he => h.optimizations e (Cache.mem_of_get hget he)⟩
  · next optimizations hget =>
    refine ⟨h.digest_eq, h.threshold_eq, fun e he => ?_⟩
    rcases Cache.mem_of_put he with rfl | he
    · exact ⟨layers, hlayers, rfl, h.threshold_eq ▸ rfl⟩
    · exact h.optimizations e (Cache.mem_of_get hget he)

/-- **One call** adds no merges to an analyzer but those it asks for. -/
theorem call (h : a.RecallsMerges threshold merged) {c : AnalyzerCall α} (hc : ∀ l ∈ c.merged, l ∈ merged) :
    (a.call c).RecallsMerges threshold merged := by
  cases c with
  | measure l width height => exact h.measure l width height
  | summarize d => exact h.summarizeLayers d d.layers
  | optimize layers => exact h.optimize hc
  | clear => exact ⟨h.digest_eq, h.threshold_eq, nofun⟩

theorem run (h : a.RecallsMerges threshold merged) {calls : List (AnalyzerCall α)}
    (hcalls : ∀ l ∈ layersMerged calls, l ∈ merged) : (a.run calls).RecallsMerges threshold merged := by
  induction calls generalizing a with
  | nil => exact h
  | cons c rest ih =>
    obtain ⟨hc, hrest⟩ := List.forall_mem_append.mp hcalls
    exact ih (h.call hc) hrest

end RecallsMerges

namespace Recalls

theorem mono {others : Set (Layer α)} (h : a.Recalls threshold asked) (hsub : asked ⊆ others) :
    a.Recalls threshold others where
  toRecallsMerges := h.toRecallsMerges.mono hsub
  measures e he := by
    obtain ⟨l, hl, hmeasure⟩ := h.measures e he
    exact ⟨l, hsub hl, hmeasure⟩

theorem measure (h : a.Recalls threshold asked) (hl : l ∈ asked) (width height : Numeral α) :
    (a.measure l width height).2.Recalls threshold asked := by
  refine ⟨h.toRecallsMerges.measure l width height, ?_⟩
  unfold Analyzer.measure
  dsimp only
  split
  · next m measures hget => exact fun e he => h.measures e (Cache.mem_of_get hget he)
  · next measures hget =>
    split
    · next m hm =>
      intro e he
      rcases Cache.mem_of_put he with rfl | he
      · exact ⟨l, hl, width, height, rfl, hm⟩
      · exact h.measures e (Cache.mem_of_get hget he)
    · exact fun e he => h.measures e (Cache.mem_of_get hget he)

theorem summarizeLayers (h : a.Recalls threshold asked) (d : Document α) {layers : List (Layer α)}
    (hlayers : ∀ l ∈ layers, l ∈ asked) : (a.summarizeLayers d layers).2.Recalls threshold asked := by
  induction layers generalizing a with
  | nil => exact h
  | cons l rest ih =>
    obtain ⟨hl, hrest⟩ := List.forall_mem_cons.mp hlayers
    have hmeasured := h.measure hl (.whole d.canvas.width) (.whole d.canvas.height)
    unfold Analyzer.summarizeLayers
    split
    · next fault b hb =>
      rw [hb] at hmeasured
      exact hmeasured
    · next m b hb =>
      rw [hb] at hmeasured
      exact ih hmeasured hrest

theorem optimize (h : a.Recalls threshold asked) {layers : List (Layer α)} (hlayers : ∀ l ∈ layers, l ∈ asked) :
    (a.optimize layers).2.Recalls threshold asked := by
  refine ⟨h.toRecallsMerges.optimize hlayers, ?_⟩
  obtain ⟨optimizations, hkept⟩ := a.optimize_kept layers
  rw [hkept]
  exact h.measures

/-- **One call** adds nothing to an analyzer but an answer to it. -/
theorem call (h : a.Recalls threshold asked) {c : AnalyzerCall α} (hc : ∀ l ∈ c.layers, l ∈ asked) :
    (a.call c).Recalls threshold asked := by
  cases c with
  | measure l width height => exact h.measure (hc l (List.mem_singleton_self l)) width height
  | summarize d => exact h.summarizeLayers d hc
  | optimize layers => exact h.optimize hc
  | clear => exact ⟨⟨h.digest_eq, h.threshold_eq, nofun⟩, nofun⟩

/-- **A run** of calls adds nothing but answers to them. -/
theorem run (h : a.Recalls threshold asked) {calls : List (AnalyzerCall α)}
    (hcalls : ∀ l ∈ layersAsked calls, l ∈ asked) : (a.run calls).Recalls threshold asked := by
  induction calls generalizing a with
  | nil => exact h
  | cons c rest ih =>
    obtain ⟨hc, hrest⟩ := List.forall_mem_append.mp hcalls
    exact ih (h.call hc) hrest

/-! ## What is recalled -/

section

variable [ToldByDigits α]

/-- **A measure** that is recalled is the one of the layer, however it got there. -/
theorem measure_fst (h : a.Recalls threshold asked) (hdigest : TellsApart shortDigest asked) (hl : l ∈ asked)
    (hfinite : ∀ p ∈ l.paths, CommandsFinite p.commands) (width height : Numeral α) :
    (a.measure l width height).1 = l.measure width height := by
  unfold Analyzer.measure
  dsimp only
  split
  · next m measures hget =>
    -- the entry may be of another layer, but only of one with the same contents
    obtain ⟨l', hl', width', height', hkey, hm⟩ := h.measures _ (Cache.mem_of_get_some hget)
    obtain ⟨hsame, rfl, rfl⟩ := measureKey_inj (h.digest_eq ▸ isEven_shortDigest) hkey
    rw [h.digest_eq] at hsame
    rw [Layer.measure_eq_of_contents hfinite (hdigest l hl l' hl' hsame), hm]
  · split
    · next m hm => exact hm.symm
    · next fault hm => exact hm.symm

theorem summarizeLayers_fst (h : a.Recalls threshold asked) (hdigest : TellsApart shortDigest asked)
    {layers : List (Layer α)} (hlayers : ∀ l ∈ layers, l ∈ asked)
    (hfinite : ∀ l ∈ layers, ∀ p ∈ l.paths, CommandsFinite p.commands) (d : Document α) :
    (a.summarizeLayers d layers).1 = d.accountsOf layers := by
  induction layers generalizing a with
  | nil => rfl
  | cons l rest ih =>
    obtain ⟨hl, hrest⟩ := List.forall_mem_cons.mp hlayers
    obtain ⟨hlfinite, hrestfinite⟩ := List.forall_mem_cons.mp hfinite
    have hanswer := h.measure_fst hdigest hl hlfinite (.whole d.canvas.width) (.whole d.canvas.height)
    have hmeasured := h.measure hl (.whole d.canvas.width) (.whole d.canvas.height)
    unfold Analyzer.summarizeLayers Document.accountsOf
    rw [List.mapM_cons]
    split
    · next fault b hb =>
      have hfault : l.measure (.whole d.canvas.width) (.whole d.canvas.height) = .error fault :=
        hanswer.symm.trans (congrArg Prod.fst hb)
      rw [hfault]
      rfl
    · next m b hb =>
      have hm : l.measure (.whole d.canvas.width) (.whole d.canvas.height) = .ok m :=
        hanswer.symm.trans (congrArg Prod.fst hb)
      rw [hb] at hmeasured
      have hothers := ih hmeasured hrest hrestfinite
      dsimp only
      rw [hothers, hm]
      rfl

end

end Recalls

/-- **A merge** that is recalled is the one of the layers, if all their numbers are written. -/
theorem RecallsMerges.optimize_fst [ToldByDigits α] {merged : Set (Layer α)} (h : a.RecallsMerges threshold merged)
    (hdigest : TellsApart shortDigest merged) {layers : List (Layer α)} (hlayers : ∀ l ∈ layers, l ∈ merged)
    (hmerged : ∀ l ∈ merged, l.IsLegible ∧ l.written = l) :
    (a.optimize layers).1 = optimizeLayers threshold layers := by
  refine h.threshold_eq ▸ Analyzer.optimize_fst fun o ho => ?_
  obtain ⟨layers', hlayers', hkey, ho⟩ := h.optimizations _ (Table.mem_of_get? ho)
  -- The answer holds the layers that it was made of, so equal contents will not do: the layers must be the same.
  have hsame : layers = layers' := by
    refine layers_eq_of_optimizationKey (h.digest_eq ▸ isEven_shortDigest) (fun l hl m hm hlm => ?_) hkey
    obtain ⟨hlegible, hwritten⟩ := hmerged l (hlayers l hl)
    obtain ⟨hlegible', hwritten'⟩ := hmerged m (hlayers' m hm)
    rw [h.digest_eq] at hlm
    rw [← hwritten, ← hwritten']
    exact Layer.written_eq_of_contents hlegible hlegible' (hdigest l (hlayers l hl) m (hlayers' m hm) hlm)
  rw [hsame, h.threshold_eq]
  exact ho

theorem get_optimize (a : Analyzer α) (layers : List (Layer α)) :
    ((a.optimize layers).2.optimizations.get (a.optimizationKey layers)).1 = some (a.optimize layers).1 := by
  unfold optimize
  dsimp only
  split
  · next o optimizations hget => exact Cache.get_again hget
  · next optimizations hget => exact optimizations.get_put _ _

/-- What was answered for some layers is answered again for whatever has the same key. -/
theorem optimize_again {layers others : List (Layer α)} (hkey : a.optimizationKey others = a.optimizationKey layers) :
    ((a.optimize layers).2.optimize others).1 = (a.optimize layers).1 := by
  have hget := a.get_optimize layers
  have hsame : (a.optimize layers).2.optimizationKey others = a.optimizationKey layers := by
    obtain ⟨optimizations, hkept⟩ := a.optimize_kept layers
    rw [← hkey, hkept]
    rfl
  generalize (a.optimize layers).2 = b at hget hsame ⊢
  unfold optimize
  dsimp only
  rw [hsame]
  split
  · next o optimizations hfound =>
    rw [hfound] at hget
    exact Option.some.inj hget
  · next optimizations hfound =>
    rw [hfound] at hget
    exact nomatch hget

end

end Analyzer

/-! ## New analyzers -/

section

variable {α : Type} [Scalar α]

theorem Analyzer.create_whole (catalog : Catalog α) {n : Int} (hn : 1 ≤ n) (threshold : α) :
    ∃ a, create catalog (.whole n) threshold = .ok a := by
  obtain ⟨_, hmeasures⟩ := Cache.create_whole (α := α) (β := LayerMeasures α) hn
  obtain ⟨_, hoptimizations⟩ := Cache.create_whole (α := α) (β := Optimization α) hn
  exact ⟨_, by rw [create, hmeasures, hoptimizations]; rfl⟩

theorem Layer.IsRead.isLegible {l : Layer α} (h : l.IsRead) : l.IsLegible := h.elim fun _ hv => read_legible hv

theorem Layer.IsRead.finite {l : Layer α} (h : l.IsRead) : ∀ p ∈ l.paths, CommandsFinite p.commands :=
  fun p hp => (h.isLegible.paths p hp).points

variable [DecimalText α] [ToldByDigits α]

/-- **Measures are recalled rightly.** A new analyzer with room for one answer or more, whatever it is asked, measures
a layer that was read as it is measured without one, and so accounts for the layers of a document by their own
measures, if the digest tells the contents of all these layers apart. -/
theorem measure_recalled {n : Int} (hn : 1 ≤ n) (catalog : Catalog α) (threshold : α) :
    ∃ a, Analyzer.create catalog (.whole n) threshold = .ok a ∧ ∀ calls : List (AnalyzerCall α),
      (∀ (l : Layer α) (width height : Numeral α), l.IsRead →
        TellsApart shortDigest {m | m ∈ l :: layersAsked calls} →
          ((a.run calls).measure l width height).1 = l.measure width height) ∧
      ∀ d : Document α, (∀ l ∈ d.layers, l.IsRead) →
        TellsApart shortDigest {m | m ∈ d.layers ++ layersAsked calls} →
          ((a.run calls).summarize d).1 = d.accountsOf d.layers := by
  obtain ⟨a, ha⟩ := Analyzer.create_whole catalog hn threshold
  refine ⟨a, ha, fun calls => ⟨fun l width height hl hdigest => ?_, fun d hd hdigest => ?_⟩⟩
  · have hrun := (Analyzer.recalls_of_create ha {m | m ∈ l :: layersAsked calls}).run
      fun m hm => List.mem_cons_of_mem l hm
    exact hrun.measure_fst hdigest List.mem_cons_self hl.finite width height
  · have hrun := (Analyzer.recalls_of_create ha {m | m ∈ d.layers ++ layersAsked calls}).run
      fun m hm => List.mem_append_right d.layers hm
    exact hrun.summarizeLayers_fst hdigest (fun l hl => List.mem_append_left _ hl) (fun l hl => (hd l hl).finite) d

end

/-- A layer of one line of some width. Its id and its region look like parts of a key. -/
def stake (width : Option Float) : Layer Float :=
  ⟨"a:1|layer", "Stake", [⟨"p", { PathStyle.plain with strokeWidth := width }, [.move ⟨0, 0⟩, .line ⟨8, 4⟩], none⟩],
    some ⟨some "b:20x10", none, none, none, none, none⟩⟩

/-- A stake of a width beyond every number. -/
def endlessStake : Layer Float := stake (some (1 / 0))

theorem isRead_stake : (stake none).IsRead := ⟨(stake none).json .full, rfl⟩

theorem isRead_endlessStake : endlessStake.IsRead := ⟨endlessStake.json .full, rfl⟩

/-- A width beyond every number is written like none. -/
theorem contents_endlessStake : endlessStake.contents = (stake none).contents := by decide +kernel

/-- Questions about an endless stake to an analyzer with room for one answer. -/
theorem measure_recalled_stake :
    (1 : Int) ≤ 1 ∧ (stake none).IsRead ∧
      ∃ a, Analyzer.create Catalog.empty (.whole 1) (Analyzer.defaultThreshold : Float) = .ok a ∧
        ((a.run [.optimize [stake none], .measure endlessStake (.whole 20) (.whole 10)]).measure
          (stake none) (.whole 20) (.whole 10)).1 = (stake none).measure (.whole 20) (.whole 10) := by
  obtain ⟨a, ha, h⟩ := measure_recalled (n := 1) (by decide) Catalog.empty (Analyzer.defaultThreshold : Float)
  refine ⟨by decide, isRead_stake, a, ha, (h _).1 _ _ _ isRead_stake (tellsApart_of_eq (stake none).contents ?_)⟩
  simp [layersAsked, AnalyzerCall.layers, contents_endlessStake]

section

variable {α : Type} [Scalar α] [DecimalText α] [ToldByDigits α]

/-- **Merges are recalled rightly** where all numbers are written: a new analyzer, whatever it is asked, merges such
layers as it does when it is asked first, if the layers that it has merged before are such layers too. -/
theorem optimize_recalled {n : Int} (hn : 1 ≤ n) (catalog : Catalog α) (threshold : α) :
    ∃ a, Analyzer.create catalog (.whole n) threshold = .ok a ∧
      ∀ (calls : List (AnalyzerCall α)) (layers : List (Layer α)),
        (∀ l ∈ layers ++ layersMerged calls, l.IsRead ∧ l.written = l) →
        TellsApart shortDigest {m | m ∈ layers ++ layersMerged calls} →
          ((a.run calls).optimize layers).1 = (a.optimize layers).1 ∧
            (a.optimize layers).1 = optimizeLayers threshold layers := by
  obtain ⟨a, ha⟩ := Analyzer.create_whole catalog hn threshold
  refine ⟨a, ha, fun calls layers hmerged hdigest => ?_⟩
  have hnew := (Analyzer.recalls_of_create ha {m | m ∈ layers ++ layersMerged calls}).toRecallsMerges
  have hlayers : ∀ l ∈ layers, l ∈ layers ++ layersMerged calls := fun l hl => List.mem_append_left _ hl
  have hlegible : ∀ l ∈ layers ++ layersMerged calls, l.IsLegible ∧ l.written = l :=
    fun l hl => (hmerged l hl).imp_left Layer.IsRead.isLegible
  have hfirst := hnew.optimize_fst hdigest hlayers hlegible
  have hrun := hnew.run fun m hm => List.mem_append_right layers hm
  exact ⟨(hrun.optimize_fst hdigest hlayers hlegible).trans hfirst.symm, hfirst⟩

end

theorem optimize_recalled_stake :
    (1 : Int) ≤ 1 ∧ (stake none).IsRead ∧ (stake none).written = stake none ∧
      ∃ a, Analyzer.create Catalog.empty (.whole 1) (Analyzer.defaultThreshold : Float) = .ok a ∧
        ((a.run [.optimize [stake none, stake none], .measure endlessStake (.whole 20) (.whole 10)]).optimize
          [stake none, stake none]).1 = (a.optimize [stake none, stake none]).1 := by
  have hwritten : (stake none).written = stake none := rfl
  obtain ⟨a, ha, h⟩ := optimize_recalled (n := 1) (by decide) Catalog.empty (Analyzer.defaultThreshold : Float)
  refine ⟨by decide, isRead_stake, hwritten, a, ha, (h _ _ ?_ (tellsApart_of_eq (stake none).contents ?_)).1⟩
  · simp [layersMerged, AnalyzerCall.merged, isRead_stake, hwritten]
  · simp [layersMerged, AnalyzerCall.merged]

/-- An endless stake is taken for one without a width, if that one was merged before. -/
theorem optimize_confuses_endlessStake :
    (1 : Int) ≤ 256 ∧ (stake none).IsRead ∧ endlessStake.IsRead ∧
      TellsApart shortDigest {m | m ∈ [endlessStake, stake none]} ∧
      ∃ a, Analyzer.create Catalog.empty (.whole 256) (Analyzer.defaultThreshold : Float) = .ok a ∧
        ((a.run [.optimize [stake none]]).optimize [endlessStake]).1 ≠ (a.optimize [endlessStake]).1 := by
  have hsame : TellsApart shortDigest {m | m ∈ [endlessStake, stake none]} :=
    tellsApart_of_eq (stake none).contents (by simp [contents_endlessStake])
  refine ⟨by decide, isRead_stake, isRead_endlessStake, hsame, Analyzer.standard, rfl, fun heq => ?_⟩
  have hkey : Analyzer.standard.optimizationKey [endlessStake] = Analyzer.standard.optimizationKey [stake none] := by
    unfold Analyzer.optimizationKey Analyzer.signature Layer.signature
    rw [List.map_singleton, contents_endlessStake]
    rfl
  have hagain : ((Analyzer.standard.run [.optimize [stake none]]).optimize [endlessStake]).1 =
      (Analyzer.standard.optimize [stake none]).1 := Analyzer.optimize_again hkey
  rw [hagain, Analyzer.optimize_fst (Analyzer.recallsTruly_of_new rfl),
    Analyzer.optimize_fst (Analyzer.recallsTruly_of_new rfl)] at heq
  have hlayers := congrArg Optimization.layers heq
  exact absurd hlayers (by decide +kernel)

end Drawing
