import PageTree.Url
import PageTree.Proofs.Text
import PageTree.Proofs.Text.Cut

/-!
# What is added to a URL

A URL falls into a scheme, a host part and its tail, which is all that follows the host part. Text that is
added to a URL with a scheme and a host part is added to its tail (`Url.HasServer.append`), and what it
means there depends on the delimiters before it. Behind a tail without them a further path segment belongs
to the path (`Url.ofTail_segment`); a question mark or a number sign in the tail swallows it
(`Url.query_ne_nil`, `Url.fragment_ne_nil`).
-/

set_option autoImplicit false

namespace PageTree.Url

variable {s t : Text}

/-! ## Scheme, host part and tail -/

/-- The scheme of a URL. -/
def schemeOf (s : Text) : Text := (cutScheme (clean s)).1

/-- The host part of a URL. -/
def hostOf (s : Text) : Text := (cutHost (cutScheme (clean s)).2).1

/-- What follows the host part of a URL. -/
def tail (s : Text) : Text := (cutHost (cutScheme (clean s)).2).2

/-- The parts of a URL by its tail. -/
def ofTail (scheme host tail : Text) : Url :=
  let (beforeFragment, fragment) := cutAt '#' tail
  let (beforeQuery, query) := cutAt '?' beforeFragment
  let (path, params) := cutParams beforeQuery
  ⟨scheme, host, path, params, query, fragment⟩

/-- A URL is read just if its host part is one, and its parts are determined by its tail. -/
theorem parse?_eq (s : Text) :
    parse? s = if isHost (hostOf s) then some (ofTail (schemeOf s) (hostOf s) (tail s)) else none :=
  rfl

/-- A URL is read as its scheme, its host part and the parts of its tail, if the host part is one. -/
theorem parse?_eq_some {url : Url} :
    parse? s = some url ↔
      isHost (hostOf s) = true ∧ ofTail (schemeOf s) (hostOf s) (tail s) = url := by
  rw [parse?_eq]
  cases isHost (hostOf s) <;> simp

/-- A URL that says how to reach a server, and which one. -/
def HasServer (s : Text) : Prop := schemeOf s ≠ [] ∧ hostOf s ≠ []

/-! ## Added text -/

/-- What is visible is not dropped from the end of a URL. -/
theorem clean_append (s : Text) (ht : ∀ c ∈ t, 0x20 < c.val) : clean (s ++ t) = clean s ++ t := by
  have hfilter : t.filter (fun c => c.val ≠ 0x09 ∧ c.val ≠ 0x0A ∧ c.val ≠ 0x0D) = t := by
    apply List.filter_eq_self.mpr
    intro c hc
    have hvisible := ht c hc
    simp only [decide_eq_true_eq]
    omega
  have hdrop : t.dropWhile (fun c => c.val ≤ 0x20) = t := by
    cases t with
    | nil => rfl
    | cons c rest =>
        have hvisible := ht c List.mem_cons_self
        rw [List.dropWhile_cons_of_neg]
        simp only [decide_eq_true_eq]
        omega
  unfold clean
  rw [List.dropWhile_append]
  cases hs : s.dropWhile (fun c => c.val ≤ 0x20) with
  | nil => simp only [List.isEmpty_nil, if_true, hdrop, hfilter, List.filter_nil, List.nil_append]
  | cons c rest =>
      simp only [List.isEmpty_cons, Bool.false_eq_true, if_false]
      rw [List.filter_append, hfilter]

/-- A scheme that is there stays what it is. -/
theorem cutScheme_append {a : Text} (h : (cutScheme a).1 ≠ []) (t : Text) :
    cutScheme (a ++ t) = ((cutScheme a).1, (cutScheme a).2 ++ t) := by
  have hcolon : CodePoint.ofChar ':' ∈ a := by
    by_contra hnone
    apply h
    simp only [cutScheme, Text.cut_of_notMem hnone]
  obtain ⟨front, rest, hcut, happend⟩ := Text.cut_append_of_mem hcolon t
  simp only [cutScheme, hcut, happend] at h ⊢
  split
  · rfl
  · next hfront => simp [hfront] at h

/-- Without a colon nothing added makes a scheme. -/
theorem cutScheme_of_append {a : Text} (h : (cutScheme (a ++ t)).1 ≠ [])
    (ht : CodePoint.ofChar ':' ∉ t) : (cutScheme a).1 ≠ [] := by
  have hcolon : CodePoint.ofChar ':' ∈ a := by
    by_contra hnone
    apply h
    have hboth : CodePoint.ofChar ':' ∉ a ++ t := by simp [hnone, ht]
    simp only [cutScheme, Text.cut_of_notMem hboth]
  obtain ⟨front, rest, hcut, happend⟩ := Text.cut_append_of_mem hcolon t
  simp only [cutScheme, hcut, happend] at h ⊢
  split
  · next hfront => simpa [hfront] using h
  · next hfront => simp [hfront] at h

/-- A text that starts with the end of a host part makes no host part longer. -/
theorem takeWhile_host_append (s : Text) (ht : ∀ c ∈ t.head?, endsHost c = true) :
    (s ++ t).takeWhile (!endsHost ·) = s.takeWhile (!endsHost ·) ∧
      (s ++ t).dropWhile (!endsHost ·) = s.dropWhile (!endsHost ·) ++ t := by
  induction s with
  | nil =>
      cases t with
      | nil => exact ⟨rfl, rfl⟩
      | cons c rest =>
          have hc := ht c rfl
          simp [hc]
  | cons c rest ih =>
      obtain ⟨htake, hdrop⟩ := ih
      cases hc : endsHost c with
      | true => simp [hc]
      | false => simp [hc, htake, hdrop]

/-- Text behind a host part that it ends is added to the tail. -/
theorem cutHost_append {x : Text} (h : (cutHost x).1 ≠ []) (ht : ∀ c ∈ t.head?, endsHost c = true) :
    cutHost (x ++ t) = ((cutHost x).1, (cutHost x).2 ++ t) := by
  match x with
  | [] => exact absurd rfl h
  | [_] => exact absurd rfl h
  | a :: b :: z =>
      obtain ⟨htake, hdrop⟩ := takeWhile_host_append z ht
      simp only [List.cons_append, cutHost, htake, hdrop]
      split <;> rfl

/-- Slashes, as they stand at the end of a URL. -/
def slashes (n : Nat) : Text := List.replicate n (CodePoint.ofChar '/')

/-- Slashes are visible. -/
theorem visible_slashes (n : Nat) : ∀ c ∈ slashes n, 0x20 < c.val := by
  intro c hc
  rw [List.eq_of_mem_replicate hc]
  decide

/-- Slashes end a host part. -/
theorem endsHost_slashes (n : Nat) : ∀ c ∈ (slashes n).head?, endsHost c = true := by
  intro c hc
  rw [List.eq_of_mem_replicate (List.mem_of_mem_head? hc)]
  decide

/-- Slashes make no host part. -/
theorem cutHost_of_append {x : Text} {n : Nat} (h : (cutHost (x ++ slashes n)).1 ≠ []) :
    (cutHost x).1 ≠ [] := by
  have hslashes : ∀ m : Nat, (slashes m).takeWhile (!endsHost ·) = [] :=
    fun m => (takeWhile_host_append [] (endsHost_slashes m)).1
  match x with
  | a :: b :: z =>
      have htake := (takeWhile_host_append z (endsHost_slashes n)).1
      simp only [List.cons_append, cutHost, htake] at h
      simp only [cutHost]
      split at h <;> simp_all
  | [a] =>
      match n with
      | 0 => exact h
      | n + 1 =>
          have htake := hslashes n
          simp only [slashes, List.replicate_succ, List.cons_append, List.nil_append, cutHost] at h
          split at h <;> simp_all [slashes]
  | [] =>
      match n with
      | 0 => exact h
      | 1 => exact absurd rfl h
      | n + 2 =>
          have htake := hslashes n
          simp only [slashes, List.replicate_succ, List.nil_append, cutHost] at h
          simp_all [slashes]

namespace HasServer

/-- Visible text that ends a host part goes to the tail and leaves the server as it is. -/
theorem append (hs : HasServer s) (ht : ∀ c ∈ t, 0x20 < c.val)
    (hstop : ∀ c ∈ t.head?, endsHost c = true) :
    schemeOf (s ++ t) = schemeOf s ∧ hostOf (s ++ t) = hostOf s ∧ tail (s ++ t) = tail s ++ t := by
  obtain ⟨hscheme, hhost⟩ := hs
  unfold schemeOf at hscheme
  unfold hostOf at hhost
  unfold schemeOf hostOf tail
  rw [clean_append s ht, cutScheme_append hscheme, cutHost_append hhost hstop]
  exact ⟨rfl, rfl, rfl⟩

/-- Slashes at the end do not say how to reach a server. -/
theorem of_slashes {n : Nat} (h : HasServer (s ++ slashes n)) : HasServer s := by
  obtain ⟨hscheme, hhost⟩ := h
  have hcolon : CodePoint.ofChar ':' ∉ slashes n :=
    fun hc => absurd (List.eq_of_mem_replicate hc) (by decide)
  unfold schemeOf at hscheme
  unfold hostOf at hhost
  rw [clean_append s (visible_slashes n)] at hscheme hhost
  have hfront := cutScheme_of_append hscheme hcolon
  rw [cutScheme_append hfront] at hhost
  exact ⟨hfront, cutHost_of_append hhost⟩

end HasServer

/-! ## The tail -/

/-- A text without the character is cut behind its end. -/
theorem cutAt_of_notMem {c : CodePoint} (h : c ∉ s) : cutAt c s = (s, []) := by
  rw [cutAt, Text.cut_of_notMem h]
  rfl

/-- A text is cut at the first occurrence of the character. -/
theorem cutAt_of_split {c : CodePoint} (h : c ∉ s) (t : Text) : cutAt c (s ++ c :: t) = (s, t) := by
  rw [cutAt, Text.cut_of_split h]
  rfl

/-- What stands behind a delimiter belongs to what the delimiter starts. -/
theorem cutAt_append_ne_nil {c : CodePoint} (hc : c ∈ s) (ht : t ≠ []) : (cutAt c (s ++ t)).2 ≠ [] := by
  obtain ⟨front, rest, -, happend⟩ := Text.cut_append_of_mem hc t
  simp only [cutAt, happend, Option.getD_some]
  exact List.append_ne_nil_of_right_ne_nil rest ht

/-- Either the last segment of a path has no parameters and no sign for them, or they are what follows the
sign. -/
theorem cutParams_cases (path : Text) :
    (path.getLast? ≠ some (CodePoint.ofChar ';') ∧ cutParams path = (path, [])) ∨
      ∃ name params, path = name ++ CodePoint.ofChar ';' :: params ∧ cutParams path = (name, params) := by
  -- A path without a slash is one segment; else the last segment follows the last slash.
  by_cases hslash : CodePoint.ofChar '/' ∈ path
  · obtain ⟨front, segment, rfl, hsegment⟩ := Text.exists_last hslash
    have hcut := Text.cutLast_of_split front hsegment
    by_cases hsign : CodePoint.ofChar ';' ∈ segment
    · obtain ⟨name, params, rfl, hname⟩ := Text.exists_first hsign
      refine .inr ⟨front ++ CodePoint.ofChar '/' :: name, params, by simp, ?_⟩
      simp only [cutParams, hcut, cutAt_of_split hname, Prod.mk.injEq, and_true]
      simp [text]
    · refine .inl ⟨?_, ?_⟩
      · intro hlast
        rw [List.getLast?_append_cons] at hlast
        rcases List.mem_cons.mp (List.mem_of_getLast? hlast) with hsame | hmem
        · exact absurd hsame (by decide)
        · exact hsign hmem
      · simp only [cutParams, hcut, cutAt_of_notMem hsign, Prod.mk.injEq, and_true]
        simp [text]
  · have hcut := Text.cutLast_of_notMem hslash
    by_cases hsign : CodePoint.ofChar ';' ∈ path
    · obtain ⟨name, params, rfl, hname⟩ := Text.exists_first hsign
      refine .inr ⟨name, params, rfl, ?_⟩
      simp only [cutParams, hcut, cutAt_of_split hname]
    · refine .inl ⟨fun hlast => hsign (List.mem_of_getLast? hlast), ?_⟩
      simp only [cutParams, hcut, cutAt_of_notMem hsign]

variable {scheme host rest segment : Text}

/-- In a tail without delimiters for more, all is path and parameters. -/
theorem ofTail_of_notMem (hquery : CodePoint.ofChar '?' ∉ rest) (hfragment : CodePoint.ofChar '#' ∉ rest) :
    ofTail scheme host rest =
      ⟨scheme, host, (cutParams rest).1, (cutParams rest).2, [], []⟩ := by
  simp only [ofTail, cutAt_of_notMem hfragment, cutAt_of_notMem hquery]

/-- The name of a path segment: a text without delimiters. -/
def IsSegment (name : Text) : Prop := ∀ c ∈ name, endsHost c = false ∧ c ≠ CodePoint.ofChar ';'

/-- A further segment behind such a tail belongs to the path. -/
theorem ofTail_segment (hquery : CodePoint.ofChar '?' ∉ rest) (hfragment : CodePoint.ofChar '#' ∉ rest)
    (hsegment : IsSegment segment) :
    ofTail scheme host (rest ++ CodePoint.ofChar '/' :: segment) =
      ⟨scheme, host, rest ++ CodePoint.ofChar '/' :: segment, [], [], []⟩ := by
  have hdelimiter : ∀ d : Char, d = '/' ∨ d = '?' ∨ d = '#' → CodePoint.ofChar d ∉ segment := by
    intro d hd hmem
    have hends := (hsegment _ hmem).1
    rcases hd with rfl | rfl | rfl <;> simp [endsHost] at hends
  have hslash := hdelimiter '/' (.inl rfl)
  have hsign : CodePoint.ofChar ';' ∉ segment := fun hmem => (hsegment _ hmem).2 rfl
  rw [ofTail_of_notMem]
  · simp only [cutParams, Text.cutLast_of_split rest hslash, cutAt_of_notMem hsign]
    simp [text]
  · simp [hquery, hdelimiter '?' (.inr (.inl rfl))]
  · simp [hfragment, hdelimiter '#' (.inr (.inr rfl))]

/-- What is added behind a number sign belongs to the fragment. -/
theorem fragment_ne_nil (h : CodePoint.ofChar '#' ∈ rest) (ht : t ≠ []) :
    (ofTail scheme host (rest ++ t)).fragment ≠ [] :=
  cutAt_append_ne_nil h ht

/-- What is added behind a question mark belongs to the query, where there is no number sign. -/
theorem query_ne_nil (h : CodePoint.ofChar '?' ∈ rest) (ht : t ≠ [])
    (hfragment : CodePoint.ofChar '#' ∉ rest ++ t) : (ofTail scheme host (rest ++ t)).query ≠ [] := by
  simp only [ofTail, cutAt_of_notMem hfragment]
  exact cutAt_append_ne_nil h ht

/-- If there is neither a query nor a fragment, nothing before the end of the tail would start one. -/
theorem notMem_of_append (ht : t ≠ []) (hmark : CodePoint.ofChar '#' ∉ t)
    (hquery : (ofTail scheme host (rest ++ t)).query = [])
    (hfragment : (ofTail scheme host (rest ++ t)).fragment = []) :
    CodePoint.ofChar '?' ∉ rest ∧ CodePoint.ofChar '#' ∉ rest := by
  have hnoFragment : CodePoint.ofChar '#' ∉ rest := fun hmem => fragment_ne_nil hmem ht hfragment
  -- The fragment is cut off first, so a question mark counts only when there is no number sign.
  have hnone : CodePoint.ofChar '#' ∉ rest ++ t := by
    rw [List.mem_append, not_or]
    exact ⟨hnoFragment, hmark⟩
  exact ⟨fun hmem => query_ne_nil hmem ht hnone hquery, hnoFragment⟩

end PageTree.Url
