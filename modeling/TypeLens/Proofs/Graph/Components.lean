import Mathlib.Data.List.Nodup
import Mathlib.Logic.Relation
import TypeLens.Graph

/-!
Depth-first search finds what can be reached, and the order in which it leaves nodes puts strongly
connected components after those that they lead to.
-/

namespace TypeLens.Graph

variable {α : Type} {next : α → List α}

/-- A path leads from one node to the other; the empty path counts. -/
abbrev Leads (next : α → List α) : α → α → Prop := Relation.ReflTransGen fun v w => w ∈ next v

/-- A successor `w` of a node that was left, where `post` was left after the node: it was left
before, or it leads to the node and to all that was left until it was left itself; if it is still to
be left, it is on the path. -/
inductive Placed (next : α → List α) (path pre : List α) (v : α) (post : List α) (w : α) : Prop
  | before (h : w ∈ pre)
  | self (h : w = v)
  | after (mid post' : List α) (h : post = mid ++ w :: post') (hback : ∀ u ∈ v :: mid, Leads next w u)
  | onPath (h : w ∈ path) (hback : ∀ u ∈ v :: post, Leads next w u)

variable [DecidableEq α]

/-- The state of a search among `nodes`: the nodes on the path, the last one first, were entered and
not left. -/
structure Searched (next : α → List α) (nodes path : List α) (s : Visited α) : Prop where
  entered : ∀ v, v ∈ s.entered ↔ v ∈ path ∨ v ∈ s.left
  nodup : (path ++ s.left).Nodup
  inside : s.entered ⊆ nodes
  back : path.Pairwise fun v w => Leads next w v
  edges : ∀ pre v post, s.left = pre ++ v :: post → ∀ w ∈ next v, Placed next path pre v post w

/-- How many nodes there are to enter. -/
def Visited.room (nodes : List α) (s : Visited α) : Nat :=
  (nodes.filter (· ∉ s.entered)).length

variable {nodes path : List α} {s : Visited α} {v : α}

omit [DecidableEq α] in
theorem Searched.enter (h : Searched next nodes path s) (hv : v ∉ s.entered) (hn : v ∈ nodes)
    (hback : ∀ u ∈ path, Leads next u v) :
    Searched next nodes (v :: path) { s with entered := v :: s.entered } where
  entered u := by simp only [List.mem_cons, h.entered, or_assoc]
  nodup := by
    rw [List.cons_append, List.nodup_cons, List.mem_append, ← h.entered]
    exact ⟨hv, h.nodup⟩
  inside := List.cons_subset.2 ⟨hn, h.inside⟩
  back := List.pairwise_cons.2 ⟨hback, h.back⟩
  edges pre u post hleft w hw := by
    cases h.edges pre u post hleft w hw with
    | before hw => exact .before hw
    | self hw => exact .self hw
    | after mid post' hpost hw => exact .after mid post' hpost hw
    | onPath hmem hw => exact .onPath (List.mem_cons_of_mem _ hmem) hw

omit [DecidableEq α] in
/-- A node is left once all its successors were entered. -/
theorem Searched.leave (h : Searched next nodes (v :: path) s) (hnext : next v ⊆ s.entered) :
    Searched next nodes path { s with left := s.left ++ [v] } where
  entered u := by
    rw [h.entered]
    simp only [List.mem_cons, List.mem_append, List.not_mem_nil, or_false]
    rw [or_assoc, or_left_comm, or_comm (a := u = v)]
  nodup := by
    rw [← List.append_assoc]
    exact List.perm_append_singleton v _ |>.nodup_iff.2 h.nodup
  inside := h.inside
  back := (List.pairwise_cons.1 h.back).2
  edges pre u post hleft w hw := by
    obtain ⟨hpath, -⟩ := List.pairwise_cons.1 h.back
    rcases List.eq_nil_or_concat post with rfl | ⟨post, x, rfl⟩
    · obtain ⟨rfl, huv⟩ := List.append_inj' hleft rfl
      obtain rfl := List.singleton_inj.1 huv
      rcases (h.entered w).1 (hnext hw) with hw | hw
      · rcases List.mem_cons.1 hw with rfl | hw
        · exact .self rfl
        · exact .onPath hw fun y hy => List.mem_singleton.1 hy ▸ hpath w hw
      · exact .before hw
    · have hleft : s.left ++ [v] = pre ++ u :: post.concat x := hleft
      have hsplit : s.left ++ [v] = (pre ++ u :: post) ++ [x] := by
        rw [hleft, List.concat_eq_append, List.append_assoc, List.cons_append]
      obtain ⟨hold, hx⟩ := List.append_inj' hsplit rfl
      obtain rfl := List.singleton_inj.1 hx
      rw [List.concat_eq_append]
      cases h.edges pre u post hold w hw with
      | before hw => exact .before hw
      | self hw => exact .self hw
      | after mid post' hpost hw =>
        exact .after mid (post' ++ [v]) (by rw [hpost, List.append_assoc, List.cons_append]) hw
      | onPath hmem hback =>
        rcases List.mem_cons.1 hmem with rfl | hmem
        · exact .after post [] rfl hback
        · refine .onPath hmem fun y hy => ?_
          rw [← List.cons_append, List.mem_append, List.mem_singleton] at hy
          rcases hy with hy | hy
          · exact hback y hy
          · exact hy ▸ hpath w hmem

theorem Visited.room_le {s r : Visited α} (h : s.entered ⊆ r.entered) :
    r.room nodes ≤ s.room nodes :=
  (List.monotone_filter_right nodes fun v hv => by
    rw [decide_eq_true_eq] at hv ⊢
    exact fun hs => hv (h hs)).length_le

theorem Visited.room_enter (hv : v ∉ s.entered) (hn : v ∈ nodes) :
    Visited.room nodes { s with entered := v :: s.entered } < s.room nodes := by
  have hfilter : nodes.filter (· ∉ v :: s.entered) =
      (nodes.filter (· ∉ s.entered)).filter (· ≠ v) := by
    rw [List.filter_filter]
    refine List.filter_congr fun w _ => ?_
    simp [not_or]
  rw [Visited.room, Visited.room, hfilter, List.length_filter_lt_length_iff_exists]
  exact ⟨v, List.mem_filter.2 ⟨hn, decide_eq_true hv⟩, by simp⟩

/-- What a search from `roots` has done. -/
structure Found (next : α → List α) (nodes path roots : List α) (s r : Visited α) : Prop where
  searched : Searched next nodes path r
  reached : roots ⊆ r.entered
  entered : s.entered ⊆ r.entered
  left : ∀ u ∈ r.left, u ∈ s.left ∨ ∃ v ∈ roots, Leads next v u

/-- One search after the other. -/
theorem found_foldl {visit : Visited α → α → Visited α} {roots : List α} {n : Nat}
    (hvisit : ∀ s, Searched next nodes path s → s.room nodes ≤ n →
      ∀ v ∈ roots, Found next nodes path [v] s (visit s v))
    (h : Searched next nodes path s) (hroom : s.room nodes ≤ n) :
    Found next nodes path roots s (roots.foldl visit s) := by
  induction roots generalizing s with
  | nil => exact ⟨h, List.nil_subset _, List.Subset.refl _, fun u hu => .inl hu⟩
  | cons v roots ih =>
    obtain ⟨hs, hv, hentered, hleft⟩ := hvisit s h hroom v (List.mem_cons_self ..)
    have hrest := ih (fun s h hs v hv => hvisit s h hs v (List.mem_cons_of_mem _ hv)) hs
      (Nat.le_trans (Visited.room_le hentered) hroom)
    refine ⟨hrest.searched, List.cons_subset.2 ⟨hrest.entered (hv (List.mem_cons_self ..)),
      hrest.reached⟩, fun u hu => hrest.entered (hentered hu), fun u hu => ?_⟩
    rcases hrest.left u hu with hu | ⟨w, hw, hlead⟩
    · refine (hleft u hu).imp_right ?_
      rintro ⟨w, hw, hlead⟩
      exact ⟨w, List.mem_cons.2 (.inl (List.mem_singleton.1 hw)), hlead⟩
    · exact .inr ⟨w, List.mem_cons_of_mem _ hw, hlead⟩

theorem found_visit (hclosed : ∀ v ∈ nodes, next v ⊆ nodes) {fuel : Nat} {path : List α}
    {s : Visited α} (h : Searched next nodes path s) (hroom : s.room nodes ≤ fuel) {v : α}
    (hn : v ∈ nodes) (hback : ∀ u ∈ path, Leads next u v) :
    Found next nodes path [v] s (visit next fuel s v) := by
  induction fuel generalizing path s v with
  | zero =>
    have hv : v ∈ s.entered := Decidable.byContradiction fun hv =>
      absurd (Visited.room_enter hv hn) (by omega)
    unfold visit
    exact ⟨h, by simpa using hv, List.Subset.refl _, fun u hu => .inl hu⟩
  | succ fuel ih =>
    unfold visit
    split
    · next hv => exact ⟨h, by simpa using hv, List.Subset.refl _, fun u hu => .inl hu⟩
    · next hv =>
      have henter := h.enter hv hn hback
      have hlt := Visited.room_enter hv hn
      have hfold : Found next nodes (v :: path) (next v) { s with entered := v :: s.entered }
          ((next v).foldl (visit next fuel) { s with entered := v :: s.entered }) := by
        refine found_foldl (n := fuel) (fun s hs hroom w hw => ?_) henter (by omega)
        refine ih hs hroom (hclosed v hn hw) fun u hu => ?_
        rcases List.mem_cons.1 hu with rfl | hu
        · exact .single hw
        · exact (hback u hu).tail hw
      refine ⟨hfold.searched.leave hfold.reached, ?_, ?_, fun u hu => ?_⟩
      · exact List.cons_subset.2 ⟨hfold.entered (List.mem_cons_self ..), List.nil_subset _⟩
      · exact fun u hu => hfold.entered (List.mem_cons_of_mem _ hu)
      · rcases List.mem_append.1 hu with hu | hu
        · refine (hfold.left u hu).imp_right ?_
          rintro ⟨w, hw, hlead⟩
          exact ⟨v, List.mem_singleton_self v, .head hw hlead⟩
        · exact .inr ⟨v, List.mem_singleton_self v, List.mem_singleton.1 hu ▸ .refl⟩

variable (hclosed : ∀ v ∈ nodes, next v ⊆ nodes)
include hclosed

theorem found_finishOrder {roots : List α} (hroots : roots ⊆ nodes) :
    Found next nodes [] roots {} (roots.foldl (visit next nodes.length) {}) := by
  have hstart : Searched next nodes [] ({} : Visited α) :=
    ⟨by simp, List.nodup_nil, List.nil_subset _, .nil, fun pre v post h => by simp at h⟩
  refine found_foldl (fun s hs hroom v hv => ?_) hstart (List.length_filter_le _ _)
  exact found_visit hclosed hs hroom (hroots hv) fun u hu => absurd hu List.not_mem_nil

/-- What a search leaves is what can be reached. -/
theorem mem_finishOrder {roots : List α} (hroots : roots ⊆ nodes) {w : α} :
    w ∈ finishOrder next nodes.length roots ↔ ∃ v ∈ roots, Leads next v w := by
  obtain ⟨hs, hr, -, hleft⟩ := found_finishOrder hclosed hroots
  have hmem (u : α) : u ∈ (roots.foldl (visit next nodes.length) {}).entered ↔
      u ∈ finishOrder next nodes.length roots := by
    rw [hs.entered, finishOrder]
    simp
  constructor
  · exact fun hw => (hleft w hw).resolve_left List.not_mem_nil
  · rintro ⟨v, hv, hlead⟩
    induction hlead with
    | refl => exact (hmem v).1 (hr hv)
    | @tail a b _ hb ih =>
      obtain ⟨pre, post, hsplit⟩ := List.append_of_mem ih
      have hall : finishOrder next nodes.length roots = pre ++ a :: post := hsplit
      cases hs.edges pre a post hsplit b hb with
      | before h => exact hall ▸ List.mem_append_left _ h
      | self h => exact h ▸ ih
      | after mid post' h => rw [hall, h]; simp
      | onPath h => cases h

omit [DecidableEq α] in
theorem mem_of_leads {v w : α} (hv : v ∈ nodes) (h : Leads next v w) : w ∈ nodes := by
  induction h with
  | refl => exact hv
  | tail _ hb ih => exact hclosed _ ih hb

-- Components

/-- Each of two nodes leads to the other. -/
def Connected (next : α → List α) (v w : α) : Prop := Leads next v w ∧ Leads next w v

omit [DecidableEq α] hclosed in
theorem Connected.symm {v w : α} (h : Connected next v w) : Connected next w v := ⟨h.2, h.1⟩

omit [DecidableEq α] hclosed in
theorem Connected.trans {u v w : α} (h : Connected next u v) (h' : Connected next v w) :
    Connected next u w := ⟨h.1.trans h'.1, h'.2.trans h.2⟩

theorem reaches_reach {v w : α} (hv : v ∈ nodes) :
    (reach next nodes).reaches v w = true ↔ Leads next v w := by
  have hget : (reach next nodes).get? v = some (finishOrder next nodes.length [v]) := by
    have hmap {ns : List α} (hv : v ∈ ns) (f : α → List α) :
        Table.get? v (ns.map fun u => (u, f u)) = some (f v) := by
      induction ns with
      | nil => cases hv
      | cons u ns ih =>
        rw [List.map_cons, Table.get?]
        split
        · next h => rw [h]
        · next h => exact ih ((List.mem_cons.1 hv).resolve_left fun hvu => h hvu.symm)
    exact hmap hv _
  have hroots : [v] ⊆ nodes := List.cons_subset.2 ⟨hv, List.nil_subset _⟩
  rw [Reach.reaches, hget, Option.getD_some, List.contains_iff_mem, mem_finishOrder hclosed hroots]
  simp

theorem connected_reach {v w : α} (hv : v ∈ nodes) (hw : w ∈ nodes) :
    (reach next nodes).connected v w = true ↔ Connected next v w := by
  rw [Reach.connected, Bool.and_eq_true, reaches_reach hclosed hv, reaches_reach hclosed hw,
    Connected]

theorem mem_order {v : α} : v ∈ finishOrder next nodes.length nodes ↔ v ∈ nodes := by
  rw [mem_finishOrder hclosed (List.Subset.refl _)]
  exact ⟨fun ⟨u, hu, h⟩ => mem_of_leads hclosed hu h, fun hv => ⟨v, hv, .refl⟩⟩

theorem mem_component {v w : α} (hv : v ∈ nodes) :
    w ∈ nodes.filter ((reach next nodes).connected v) ↔ w ∈ nodes ∧ Connected next v w := by
  rw [List.mem_filter]
  exact and_congr_right fun hw => connected_reach hclosed hv hw

/-- The last node of a component comes after all that it leads to from outside the component. -/
theorem before_last {pre post : List α} {v : α}
    (horder : finishOrder next nodes.length nodes = pre ++ v :: post)
    (hlast : ∀ u ∈ post, ¬ Connected next v u) {w : α} (h : Leads next v w) :
    w ∈ pre ∨ w = v := by
  obtain ⟨hs, -⟩ := found_finishOrder hclosed (List.Subset.refl nodes)
  have hnot {b : α} (hvb : Leads next v b) (hb : b ∈ post) (hbv : Leads next b v) :
      b ∈ pre ∨ b = v := absurd ⟨hvb, hbv⟩ (hlast b hb)
  induction h with
  | refl => exact .inr rfl
  | @tail a b hva hb ih =>
    have hvb : Leads next v b := hva.tail hb
    rcases ih with ha | rfl
    · obtain ⟨pre', mid, rfl⟩ := List.append_of_mem ha
      have hsplit := horder
      rw [List.append_assoc, List.cons_append] at hsplit
      cases hs.edges pre' a _ hsplit b hb with
      | before h => exact .inl (List.mem_append_left _ h)
      | self h => exact .inl (h ▸ ha)
      | onPath h => cases h
      | after mid' post' hpost hback =>
        rcases List.append_eq_append_iff.1 hpost with ⟨c, rfl, hc⟩ | ⟨c, rfl, hc⟩
        · rcases List.cons_eq_append_iff.1 hc with ⟨-, hc⟩ | ⟨c, rfl, rfl⟩
          · exact .inr (List.cons.inj hc).1
          · exact hnot hvb (by simp) (hback v (by simp))
        · rcases List.cons_eq_append_iff.1 hc with ⟨-, hc⟩ | ⟨c, rfl, rfl⟩
          · exact .inr (List.cons.inj hc).1.symm
          · exact .inl (by simp)
    · cases hs.edges pre a post horder b hb with
      | before h => exact .inl h
      | self h => exact .inr h
      | onPath h => cases h
      | after mid post' hpost hback =>
        exact hnot hvb (hpost ▸ by simp) (hback a (List.mem_cons_self ..))

/-- A node that has none of its component after it in the order. -/
def IsLast (next : α → List α) (order : List α) (v : α) : Prop :=
  ∃ pre post, order = pre ++ v :: post ∧ ∀ u ∈ post, ¬ Connected next v u

omit [DecidableEq α] hclosed in
theorem exists_isLast {order : List α} {v : α} (hv : v ∈ order) :
    ∃ u, IsLast next order u ∧ Connected next u v := by
  induction order generalizing v with
  | nil => cases hv
  | cons x order ih =>
    have hrest {v : α} (hv : v ∈ order) : ∃ u, IsLast next (x :: order) u ∧ Connected next u v := by
      obtain ⟨u, ⟨pre, post, rfl, hlast⟩, hu⟩ := ih hv
      exact ⟨u, ⟨x :: pre, post, rfl, hlast⟩, hu⟩
    rcases List.mem_cons.1 hv with rfl | hv
    · by_cases hlast : ∀ u ∈ order, ¬ Connected next v u
      · exact ⟨v, ⟨[], order, rfl, hlast⟩, .refl, .refl⟩
      · simp only [not_forall, not_not] at hlast
        obtain ⟨u, hu, hvu⟩ := hlast
        obtain ⟨w, hw, hwu⟩ := hrest hu
        exact ⟨w, hw, hwu.trans hvu.symm⟩
    · exact hrest hv

omit [DecidableEq α] hclosed in
theorem IsLast.of_nodup {pre post : List α} {v : α} (h : IsLast next (pre ++ v :: post) v)
    (hnodup : (pre ++ v :: post).Nodup) : ∀ u ∈ post, ¬ Connected next v u := by
  obtain ⟨pre', post', hsplit, hlast⟩ := h
  have hpre : v ∉ pre := fun hv => (List.nodup_append.1 hnodup).2.2 v hv v (by simp) rfl
  have hpost : v ∉ post := (List.nodup_cons.1 (List.nodup_append.1 hnodup).2.1).1
  obtain ⟨-, -, rfl⟩ := (List.append_cons_inj_of_notMem hpre hpost).1 hsplit
  exact hlast

/-- Some part of the order is done, which a node belongs to with the last of its component. -/
def Done (next : α → List α) (order done : List α) (v : α) : Prop :=
  ∃ u ∈ done, IsLast next order u ∧ Connected next u v

/-- A component that a part of the order gives comes after those that it leads to. -/
theorem componentsIn_ordered {done rest : List α}
    (horder : finishOrder next nodes.length nodes = done ++ rest) {pre post : List (List α)}
    {g : List α} (hg : componentsIn (reach next nodes) nodes rest = pre ++ g :: post) {v w : α}
    (hv : v ∈ g) (h : Leads next v w) :
    Done next (finishOrder next nodes.length nodes) done w ∨ ∃ g' ∈ pre ++ [g], w ∈ g' := by
  obtain ⟨hs, -⟩ := found_finishOrder hclosed (List.Subset.refl nodes)
  induction rest generalizing done pre with
  | nil => simp [componentsIn] at hg
  | cons x rest ih =>
    have hnodup : (done ++ x :: rest).Nodup := horder ▸ hs.nodup
    have hnodes {u : α} (hu : u ∈ done ++ x :: rest) : u ∈ nodes :=
      (mem_order hclosed).1 (horder ▸ hu)
    have hx : x ∈ nodes := hnodes (by simp)
    have hany : rest.any ((reach next nodes).connected x) = true ↔
        ∃ u ∈ rest, Connected next x u := by
      rw [List.any_eq_true]
      exact exists_congr fun u => and_congr_right fun hu =>
        connected_reach hclosed hx (hnodes (by simp [hu]))
    have hrest {pre : List (List α)}
        (hg : componentsIn (reach next nodes) nodes rest = pre ++ g :: post) :
        Done next (finishOrder next nodes.length nodes) done w ∨
          IsLast next (finishOrder next nodes.length nodes) x ∧ Connected next x w ∨
          ∃ g' ∈ pre ++ [g], w ∈ g' := by
      have hsplit : finishOrder next nodes.length nodes = (done ++ [x]) ++ rest := by
        rw [horder, List.append_assoc, List.singleton_append]
      rcases ih hsplit hg with ⟨u, hu, hlast, huw⟩ | hmem
      · rcases List.mem_append.1 hu with hu | hu
        · exact .inl ⟨u, hu, hlast, huw⟩
        · obtain rfl := List.mem_singleton.1 hu
          exact .inr (.inl ⟨hlast, huw⟩)
      · exact .inr (.inr hmem)
    unfold componentsIn at hg
    split at hg
    · next hlater =>
      obtain ⟨u, hu, hxu⟩ := hany.1 hlater
      rcases hrest hg with hdone | ⟨hlast, -⟩ | hmem
      · exact .inl hdone
      · rw [horder] at hlast
        exact absurd hxu (hlast.of_nodup hnodup u hu)
      · exact .inr hmem
    · next hlater =>
      have hlast : ∀ u ∈ rest, ¬ Connected next x u := fun u hu hxu => hlater (hany.2 ⟨u, hu, hxu⟩)
      cases pre with
      | nil =>
        obtain ⟨rfl, -⟩ := List.cons.inj hg
        -- What stands in the first component leads to what its last node leads to.
        have hxw : Leads next x w := ((mem_component hclosed hx).1 hv).2.1.trans h
        have hw : w ∈ nodes := mem_of_leads hclosed hx hxw
        obtain ⟨u, hu, huw⟩ : ∃ u, IsLast next (finishOrder next nodes.length nodes) u ∧
            Connected next u w := exists_isLast ((mem_order hclosed).2 hw)
        have hxu : Leads next x u := hxw.trans huw.2
        rcases before_last hclosed horder hlast hxu with hdone | rfl
        · exact .inl ⟨u, hdone, hu, huw⟩
        · exact .inr ⟨_, List.mem_singleton_self _, (mem_component hclosed hx).2 ⟨hw, huw⟩⟩
      | cons g₀ pre =>
        obtain ⟨rfl, htail⟩ := List.cons.inj hg
        rcases hrest htail with hdone | ⟨-, hxw⟩ | ⟨g', hg', hw⟩
        · exact .inl hdone
        · exact .inr ⟨_, List.mem_cons_self .., (mem_component hclosed hx).2 ⟨mem_of_leads hclosed hx hxw.1, hxw⟩⟩
        · exact .inr ⟨g', List.mem_cons_of_mem _ hg', hw⟩

/-- A component comes after the ones that it leads to. -/
theorem components_ordered {pre post : List (List α)} {g : List α}
    (hg : components next nodes = pre ++ g :: post) {v w : α} (hv : v ∈ g) (h : Leads next v w) :
    ∃ g' ∈ pre ++ [g], w ∈ g' := by
  refine (componentsIn_ordered hclosed (List.nil_append _).symm hg hv h).resolve_left ?_
  rintro ⟨u, hu, -⟩
  cases hu

theorem exists_mem_components {v : α} (hv : v ∈ nodes) : ∃ g ∈ components next nodes, v ∈ g := by
  obtain ⟨u, hu, huv⟩ : ∃ u, IsLast next (finishOrder next nodes.length nodes) u ∧
      Connected next u v := exists_isLast ((mem_order hclosed).2 hv)
  obtain ⟨pre, post, horder, hlast⟩ := hu
  have hnodes {w : α} (hw : w ∈ pre ++ u :: post) : w ∈ nodes :=
    (mem_order hclosed).1 (horder ▸ hw)
  have hgroup {done : List α} : nodes.filter ((reach next nodes).connected u) ∈
      componentsIn (reach next nodes) nodes (done ++ u :: post) := by
    induction done with
    | nil =>
      have hno : ¬ post.any ((reach next nodes).connected u) = true := by
        rw [List.any_eq_true]
        rintro ⟨w, hw, huw⟩
        exact hlast w hw ((connected_reach hclosed (hnodes (by simp)) (hnodes (by simp [hw]))).1 huw)
      rw [List.nil_append, componentsIn, if_neg hno]
      exact List.mem_cons_self ..
    | cons x done ih =>
      rw [List.cons_append, componentsIn]
      split
      · exact ih
      · exact List.mem_cons_of_mem _ ih
  refine ⟨nodes.filter ((reach next nodes).connected u), ?_, List.mem_filter.2 ⟨hv, ?_⟩⟩
  · rw [components, horder]
    exact hgroup
  · exact (connected_reach hclosed (hnodes (by simp)) hv).2 huv

omit [DecidableEq α] hclosed in
theorem Connected.refl (v : α) : Connected next v v := ⟨.refl, .refl⟩

omit hclosed in
theorem exists_of_mem_componentsIn {r : Reach α} {order g : List α}
    (h : g ∈ componentsIn r nodes order) : ∃ v ∈ order, g = nodes.filter (r.connected v) := by
  induction order with
  | nil => cases h
  | cons x order ih =>
    have hrest (h : g ∈ componentsIn r nodes order) :
        ∃ v ∈ x :: order, g = nodes.filter (r.connected v) := by
      obtain ⟨v, hv, rfl⟩ := ih h
      exact ⟨v, List.mem_cons_of_mem _ hv, rfl⟩
    unfold componentsIn at h
    split at h
    · exact hrest h
    · rcases List.mem_cons.1 h with rfl | h
      · exact ⟨x, List.mem_cons_self .., rfl⟩
      · exact hrest h

/-- A component consists of all nodes that one of them is connected to. -/
theorem exists_of_mem_components {g : List α} (hg : g ∈ components next nodes) :
    ∃ v ∈ nodes, g = nodes.filter ((reach next nodes).connected v) := by
  obtain ⟨v, hv, rfl⟩ := exists_of_mem_componentsIn hg
  exact ⟨v, (mem_order hclosed).1 hv, rfl⟩

theorem mem_of_mem_component {g : List α} (hg : g ∈ components next nodes) {v w : α}
    (hv : v ∈ g) : w ∈ g ↔ w ∈ nodes ∧ Connected next v w := by
  obtain ⟨u, hu, rfl⟩ := exists_of_mem_components hclosed hg
  obtain ⟨-, huv⟩ := (mem_component hclosed hu).1 hv
  rw [mem_component hclosed hu]
  exact and_congr_right fun _ => ⟨huv.symm.trans, huv.trans⟩

theorem sublist_of_mem_components {g : List α} (hg : g ∈ components next nodes) :
    g.Sublist nodes := by
  obtain ⟨v, -, rfl⟩ := exists_of_mem_components hclosed hg
  exact List.filter_sublist

theorem disjoint_componentsIn {order : List α} (horder : order ⊆ nodes) :
    (componentsIn (reach next nodes) nodes order).Pairwise List.Disjoint := by
  induction order with
  | nil => exact .nil
  | cons x order ih =>
    obtain ⟨hx, horder⟩ := List.cons_subset.1 horder
    unfold componentsIn
    split
    · exact ih horder
    · next hlast =>
      refine List.pairwise_cons.2 ⟨fun g hg w hw hw' => hlast ?_, ih horder⟩
      obtain ⟨u, hu, rfl⟩ := exists_of_mem_componentsIn hg
      obtain ⟨-, hxw⟩ := (mem_component hclosed hx).1 hw
      obtain ⟨-, huw⟩ := (mem_component hclosed (horder hu)).1 hw'
      exact List.any_eq_true.2 ⟨u, hu, (connected_reach hclosed hx (horder hu)).2 (hxw.trans huw.symm)⟩

/-- Every node is in exactly one component. -/
theorem flatten_components_perm (hnodup : nodes.Nodup) :
    (components next nodes).flatten.Perm nodes := by
  have hdisjoint : (components next nodes).Pairwise List.Disjoint :=
    disjoint_componentsIn hclosed fun v => (mem_order hclosed).1
  have hflat : (components next nodes).flatten.Nodup :=
    List.nodup_flatten.2
      ⟨fun g hg => hnodup.sublist (sublist_of_mem_components hclosed hg), hdisjoint⟩
  refine (List.perm_ext_iff_of_nodup hflat hnodup).2 fun v => ?_
  rw [List.mem_flatten]
  constructor
  · rintro ⟨g, hg, hv⟩
    exact (sublist_of_mem_components hclosed hg).subset hv
  · exact exists_mem_components hclosed

/-- Two nodes are in one component if they are connected, and only then. -/
theorem exists_component_iff {v w : α} (hv : v ∈ nodes) (hw : w ∈ nodes) :
    (∃ g ∈ components next nodes, v ∈ g ∧ w ∈ g) ↔ Connected next v w := by
  constructor
  · rintro ⟨g, hg, hv, hw⟩
    exact ((mem_of_mem_component hclosed hg hv).1 hw).2
  · intro h
    obtain ⟨g, hg, hvg⟩ := exists_mem_components hclosed hv
    exact ⟨g, hg, hvg, (mem_of_mem_component hclosed hg hvg).2 ⟨hw, h⟩⟩

end TypeLens.Graph
