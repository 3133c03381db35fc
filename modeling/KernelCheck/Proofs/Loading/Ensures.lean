import KernelCheck.Document.ToModule
import KernelCheck.Proofs.Loading.Names

/-!
# What a step of loading ensures

A name says nothing without a table, and the table of a module is the one that is
there when the last of its functions is loaded.  So what a step yields is judged by
the tables that come later.

* `Loading.Ensures` — what a step yields, if it yields anything, has a property in
  every table that holds the names known after it.  Its rules follow the ways in which
  steps are put together, and none of them has to say that a property survives a
  growing table.
* `MarkerNode.ensures_toMarker`, `TypeNode.ensures_toCType` — what is known of a marker
  and of a type, the only nodes that look at a word before they take it.
-/

namespace KernelCheck

/-- The offsets are those of the span, and they are the offsets of a span. -/
def Offsets.Give (o : Offsets) (s : Span) : Prop := Span.ofOffsets o.start o.stop = .ok s

namespace Loading

variable {α β δ : Type}

/-- If the step succeeds, then the table has only grown, and what is yielded has the
property in every table with the names known now. -/
def Ensures (Q : Interner → α → Prop) (m : Loading α) : Prop :=
  ∀ t x u, m.run t = .ok (x, u) → t.Within u ∧ ∀ w, u.Within w → Q w x

namespace Ensures

variable {Q : Interner → α → Prop} {S : Interner → β → Prop}

/-- What is there already has the property. -/
theorem pure {x : α} (h : ∀ w, Q w x) : Ensures Q (pure x) := by
  intro t y u hrun
  cases hrun
  exact ⟨.refl t, fun w _ => h w⟩

/-- A step that fails yields nothing. -/
theorem throw (e : LoadError) : Ensures Q (throw e) := by
  intro t x u hrun
  cases hrun

/-- A property may be weakened. -/
theorem mono {R : Interner → α → Prop} {m : Loading α} (h : Ensures Q m)
    (hQ : ∀ w x, Q w x → R w x) : Ensures R m := by
  intro t x u hrun
  obtain ⟨hu, hx⟩ := h t x u hrun
  exact ⟨hu, fun w hw => hQ w x (hx w hw)⟩

/-- What the first steps have ensured can be used for what is yielded in the end. -/
theorem bind {m : Loading α} {k : α → Loading β} (h : Ensures Q m)
    (hk : ∀ x, Ensures (fun w y => Q w x → S w y) (k x)) : Ensures S (m >>= k) := by
  intro t y v hrun
  have hsteps : (m.run t >>= fun r => (k r.1).run r.2) = .ok (y, v) := hrun
  cases hm : m.run t with
  | error e =>
      rw [hm] at hsteps
      cases hsteps
  | ok r =>
      obtain ⟨x, u⟩ := r
      rw [hm] at hsteps
      obtain ⟨hu, hQ⟩ := h t x u hm
      obtain ⟨hv, hS⟩ := hk x u y v hsteps
      exact ⟨hu.trans hv, fun w hw => hS w hw (hQ w (hv.trans hw))⟩

/-- A table that holds what was added keeps it. -/
theorem intern (s : String) : Ensures (fun w n => w.get? s = some n) (intern s) := by
  intro t n u hrun
  have hadded : t.intern s = (n, u) := Except.ok.inj hrun
  obtain ⟨rfl, rfl⟩ := Prod.mk.inj hadded
  exact ⟨t.within_intern s, fun w hw => hw _ _ (t.get?_intern s)⟩

/-- A name says something, and the table knows its text. -/
theorem name (role : NameRole) (s : String) (span : Span) :
    Ensures (fun w n => s ≠ "" ∧ w.get? s = some n) (name role s span) := by
  unfold Loading.name
  split
  case isTrue => exact throw _
  case isFalse h =>
      have hne : s ≠ "" := by simpa using h
      intro t n u hrun
      obtain ⟨hu, hn⟩ := intern s t n u hrun
      exact ⟨hu, fun w hw => ⟨hne, hn w hw⟩⟩

/-- The rest may rely on the offsets being those of the span. -/
theorem bindSpan {k : Span → Loading β} (o : Offsets) (hk : ∀ s, o.Give s → Ensures S (k s)) :
    Ensures S (o.toSpan >>= k) := by
  unfold Offsets.toSpan
  split
  case h_1 s h => exact hk s h
  case h_2 => exact throw _

/-- Steps for the items of a list, one after the other. -/
theorem mapM_forall {f : δ → Loading α} (h : ∀ d, Ensures Q (f d)) (ds : List δ) :
    Ensures (fun w xs => ∀ x ∈ xs, Q w x) (ds.mapM f) := by
  induction ds with
  | nil => exact pure fun w => List.forall_mem_nil _
  | cons d rest ih =>
      rw [List.mapM_cons]
      refine (h d).bind fun x => ih.bind fun xs => ?_
      exact pure fun w hxs hx => List.forall_mem_cons.mpr ⟨hx, hxs⟩

/-- If each item comes back as something that depends on it alone, then so does the
list. -/
theorem mapM_map {γ : Type} {f : δ → Loading α} {back : Interner → α → γ} {g : δ → γ}
    (h : ∀ d, Ensures (fun w x => back w x = g d) (f d)) (ds : List δ) :
    Ensures (fun w xs => xs.map (back w) = ds.map g) (ds.mapM f) := by
  induction ds with
  | nil => exact pure fun w => rfl
  | cons d rest ih =>
      rw [List.mapM_cons]
      refine (h d).bind fun x => ih.bind fun xs => ?_
      refine pure fun w hxs hx => ?_
      rw [List.map_cons, List.map_cons, hxs, hx]

/-- The marker for a word, which is a custom one unless it is built in. -/
theorem markerKind (s : String) :
    Ensures (fun w kind => MarkerKind.builtin? s = some kind ∨
        ∃ n, kind = .custom n ∧ w.get? s = some n)
      (modifyGet fun t => MarkerKind.ofText s t : Loading MarkerKind) := by
  intro t kind u hrun
  have hword : MarkerKind.ofText s t = (kind, u) := Except.ok.inj hrun
  unfold MarkerKind.ofText at hword
  split at hword
  case h_1 builtin hbuiltin =>
      cases hword
      exact ⟨.refl t, fun w _ => .inl hbuiltin⟩
  case h_2 =>
      cases hword
      exact ⟨t.within_intern s, fun w hw => .inr ⟨_, rfl, hw _ _ (t.get?_intern s)⟩⟩

end Ensures

end Loading

open Loading

/-! ## Markers and types -/

/-- A marker that loads has a place and a word. -/
theorem MarkerNode.ensures_toMarker (m : MarkerNode) :
    Ensures (fun w marker => m.offsets.Give marker.span ∧ m.bareWord ≠ "" ∧
      (MarkerKind.builtin? m.bareWord = some marker.kind ∨
        ∃ n, marker.kind = .custom n ∧ w.get? m.bareWord = some n)) m.toMarker := by
  refine .bindSpan _ fun span hspan => ?_
  by_cases hempty : m.bareWord.isEmpty
  · simp only [hempty, if_true]
    exact .throw _
  · simp only [hempty, if_false, Bool.false_eq_true]
    refine (Ensures.markerKind m.bareWord).bind fun kind => .pure fun w hkind => ?_
    exact ⟨hspan, by simpa using hempty, hkind⟩

/-- The base of a type that loads is a keyword or has a name. -/
theorem TypeNode.ensures_toCType (c : TypeNode) (span : Span) :
    Ensures (fun w type => type = ⟨type.base, c.isUnsigned, c.isConst, c.pointerDepth⟩ ∧
      (BaseType.keyword? c.base = some type.base ∨
        BaseType.keyword? c.base = none ∧
          ∃ n, type.base = .named n ∧ c.base ≠ "" ∧ w.get? c.base = some n))
      (c.toCType span) := by
  unfold toCType
  split
  case h_1 base hkeyword => exact .pure fun w => ⟨rfl, .inl hkeyword⟩
  case h_2 hnone =>
      have hbase : Ensures (fun w base => ∃ n, base = .named n ∧ c.base ≠ "" ∧
          w.get? c.base = some n) (BaseType.named <$> Loading.name .type c.base span) := by
        rw [map_eq_pure_bind]
        refine (Ensures.name .type c.base span).bind fun n => .pure fun w hn => ?_
        exact ⟨n, rfl, hn⟩
      exact hbase.bind fun base => .pure fun w hnamed => ⟨rfl, .inr ⟨hnone, hnamed⟩⟩

end KernelCheck
