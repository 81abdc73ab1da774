import TradingDesk.Auth.Headers
import TradingDesk.Proofs.Text.Numeral

/-! Messages that tell their requests apart. A message has a time, a method, a path and a body, one
after the other with nothing in between. There is one way to part it all the same where what is only
asked for has no body, and each other body begins with a bracket, of which there is none in the
path: a time has nothing but digits, and no two methods begin alike. -/

namespace TradingDesk

/-! ### Texts that can be parted -/

theorem takeWhile_front {α : Type} {p : α → Bool} {front back : List α}
    (hfront : ∀ a ∈ front, p a) (hback : ∀ a ∈ back.head?, p a = false) :
    (front ++ back).takeWhile p = front := by
  have hstop : back.takeWhile p = [] := by
    cases back with
    | nil => rfl
    | cons a back => rw [List.takeWhile_cons_of_neg (by simp [hback a rfl])]
  rw [List.takeWhile_append_of_pos hfront, hstop, List.append_nil]

/-- There is one way to part a list where the members with `p` end. -/
theorem append_inj_of_front {α : Type} {p : α → Bool} {front back other rest : List α}
    (hfront : ∀ a ∈ front, p a) (hback : ∀ a ∈ back.head?, p a = false)
    (hother : ∀ a ∈ other, p a) (hrest : ∀ a ∈ rest.head?, p a = false)
    (h : front ++ back = other ++ rest) : front = other ∧ back = rest := by
  have hsame : front = other := by
    rw [← takeWhile_front hfront hback, h, takeWhile_front hother hrest]
  subst hsame
  exact ⟨rfl, List.append_cancel_left h⟩

/-- No two methods begin alike. -/
theorem Method.append_inj {m k : Method} {xs ys : List Char}
    (h : m.name.toList ++ xs = k.name.toList ++ ys) : m = k ∧ xs = ys := by
  cases m <;> cases k <;> simp_all [Method.name]

theorem Method.head?_name (m : Method) (xs : List Char) :
    ∀ c ∈ (m.name.toList ++ xs).head?, Numeral.isDigit c = false := by
  cases m <;> simp [Method.name, Numeral.isDigit]

/-- The character `c` begins an array or an object. -/
def Json.opens (c : Char) : Bool := c = '[' || c = '\x7b'

theorem Json.opens_array (items : List Json) : ∃ c ∈ (array items).text.toList.head?, opens c := by
  simp [text, opens]

theorem Json.opens_object (members : List (String × Json)) :
    ∃ c ∈ (object members).text.toList.head?, opens c := by
  simp [text, opens]

/-! ### Requests that can be told apart -/

theorem Auth.timeText_inj {t u : UInt64} : timeText t = timeText u ↔ t = u := by
  refine ⟨fun h => ?_, congrArg timeText⟩
  have hdigits : Numeral.digits t.toNat = Numeral.digits u.toNat := String.ofList_injective h
  rw [← UInt64.toNat_inj, ← Numeral.value_digits t.toNat, hdigits, Numeral.value_digits]

/-- Where the path of `r` ends and the body begins can be seen from both together. -/
structure Request.Delimited (r : Request) : Prop where
  asks : r.method = .get → r.body = none
  path : r.method ≠ .get → ∀ c ∈ r.path.toList, Json.opens c = false
  body : ∀ b ∈ r.body, ∃ c ∈ b.toList.head?, Json.opens c

namespace RequestSignature

theorem head?_unquoted {body : String} (h : ∃ c ∈ body.toList.head?, Json.opens c) :
    ∃ c ∈ (unquoted body).toList.head?, Json.opens c := by
  obtain ⟨c, hc, hopens⟩ := h
  have hquote : c ≠ '\'' := by
    rintro rfl
    simp [Json.opens] at hopens
  refine ⟨c, ?_, hopens⟩
  rw [unquoted, String.toList_ofList, List.head?_map, Option.mem_def.1 hc]
  simp [hquote]

theorem message_toList (t : UInt64) (r : Request) :
    (message (Auth.timeText t) r.method.name r.path r.body).toList =
      Numeral.digits t.toNat ++ (r.method.name.toList ++
        (r.path.toList ++ (r.body.elim "" unquoted).toList)) := by
  simp [message, Auth.timeText, Numeral.ofNat]

/-- A body that is there is not empty, so it is not taken for none. -/
theorem map_unquoted_of_elim {b d : Option String}
    (hb : ∀ body ∈ b, ∃ c ∈ body.toList.head?, Json.opens c)
    (hd : ∀ body ∈ d, ∃ c ∈ body.toList.head?, Json.opens c)
    (h : b.elim "" unquoted = d.elim "" unquoted) : b.map unquoted = d.map unquoted := by
  have hempty : ∀ body : String, (∃ c ∈ body.toList.head?, Json.opens c) → unquoted body ≠ "" := by
    intro body hbody hnone
    obtain ⟨c, hc, -⟩ := head?_unquoted hbody
    simp [hnone] at hc
  cases b with
  | none =>
    cases d with
    | none => rfl
    | some body => exact absurd h.symm (hempty body (hd body rfl))
  | some body =>
    cases d with
    | none => exact absurd h (hempty body (hb body rfl))
    | some other => exact congrArg some h

theorem head?_body {r : Request} (h : r.Delimited) :
    ∀ c ∈ (r.body.elim "" unquoted).toList.head?, Json.opens c := by
  intro c hc
  cases hbody : r.body with
  | none => simp [hbody] at hc
  | some body =>
    obtain ⟨d, hd, hopens⟩ := head?_unquoted (h.body body hbody)
    rw [hbody] at hc
    cases Option.some.inj ((Option.mem_def.1 hc).symm.trans (Option.mem_def.1 hd))
    exact hopens

/-- Requests that are `Delimited` have one message just if they are the same but for the quotes in
their bodies and are signed at the same time. -/
theorem message_inj {r s : Request} (hr : r.Delimited) (hs : s.Delimited) {t u : UInt64} :
    message (Auth.timeText t) r.method.name r.path r.body =
        message (Auth.timeText u) s.method.name s.path s.body ↔
      t = u ∧ r.method = s.method ∧ r.path = s.path ∧
        r.body.map unquoted = s.body.map unquoted := by
  constructor
  · intro h
    have hlist := congrArg String.toList h
    rw [message_toList, message_toList] at hlist
    obtain ⟨htime, hlist⟩ := append_inj_of_front (Numeral.isDigit_of_mem_digits _)
      (Method.head?_name _ _) (Numeral.isDigit_of_mem_digits _) (Method.head?_name _ _) hlist
    obtain ⟨hmethod, hlist⟩ := Method.append_inj hlist
    have htime : t = u := Auth.timeText_inj.1 (congrArg String.ofList htime)
    have hparts : r.path = s.path ∧ r.body.elim "" unquoted = s.body.elim "" unquoted := by
      by_cases hget : r.method = .get
      · -- the whole rest is the path, whatever the user has put there
        rw [hr.asks hget, hs.asks (hmethod ▸ hget)] at hlist ⊢
        exact ⟨String.toList_inj.1 (by simpa using hlist), rfl⟩
      · -- the path goes on up to the first bracket
        have hclosed : ∀ {q : Request}, q.Delimited → q.method ≠ .get →
            ∀ c ∈ q.path.toList, (!Json.opens c) = true := by
          intro q hq hmethod c hc
          rw [hq.path hmethod c hc, Bool.not_false]
        have hopen : ∀ {q : Request}, q.Delimited →
            ∀ c ∈ (q.body.elim "" unquoted).toList.head?, (!Json.opens c) = false := by
          intro q hq c hc
          rw [head?_body hq c hc, Bool.not_true]
        obtain ⟨hpath, hbody⟩ := append_inj_of_front (hclosed hr hget) (hopen hr)
          (hclosed hs (hmethod ▸ hget)) (hopen hs) hlist
        exact ⟨String.toList_inj.1 hpath, String.toList_inj.1 hbody⟩
    exact ⟨htime, hmethod, hparts.1, map_unquoted_of_elim hr.body hs.body hparts.2⟩
  · rintro ⟨rfl, hmethod, hpath, hbody⟩
    have helim (b : Option String) : b.elim "" unquoted = (b.map unquoted).getD "" := by
      cases b <;> rfl
    rw [message, message, helim, helim, hmethod, hpath, hbody]

end RequestSignature

end TradingDesk
