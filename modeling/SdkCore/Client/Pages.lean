import Mathlib.Data.List.Chain

/-!
# Pages of a workflow task completion

The commands of a completion that is too large are packed into intermediate pages, by the sizes of their bodies only,
and the rest is left to a final page (`paginateWftCompletion_spec`).
-/

namespace SdkCore.WftCompletion

/-- The length of a varint as prost computes it. -/
def encodedLenVarint (v : Nat) : Nat := (Nat.log2 (v ||| 1) * 9 + 73) / 64

/-- `RespondWorkflowTaskCompletedRequest`. `rest` are the fields that only the final page has. -/
structure Request (κ ρ : Type) where
  taskToken : List UInt8 := []
  commands : List κ := []
  identity : String := ""
  namespace_ : String := ""
  pageNumber : Int32 := 0
  intermediatePage : Bool := false
  rest : ρ
  deriving DecidableEq

/-- How long the encodings are. Fields with default values are left out of them. -/
structure Codec (κ ρ : Type) where
  commandLen : κ → Nat
  restLen : ρ → Nat
  default : ρ
  restLen_default : restLen default = 0

variable {κ ρ : Type}

def total (f : κ → Nat) : List κ → Nat
  | [] => 0
  | x :: xs => f x + total f xs

/-- A field of bytes with a tag of one byte. -/
def bytesLen (n : Nat) : Nat := if n = 0 then 0 else 1 + encodedLenVarint n + n

namespace Codec

variable (c : Codec κ ρ)

def encodedLen (r : Request κ ρ) : Nat :=
  bytesLen r.taskToken.length + total (fun x => 1 + encodedLenVarint (c.commandLen x) + c.commandLen x) r.commands +
    bytesLen r.identity.utf8ByteSize + bytesLen r.namespace_.utf8ByteSize +
    (if r.pageNumber = 0 then 0 else 2 + encodedLenVarint r.pageNumber.toInt64.toUInt64.toNat) +
    (if r.intermediatePage then 3 else 0) + c.restLen r.rest

/-- An intermediate page without commands. -/
def intermediateTemplate (request : Request κ ρ) : Request κ ρ where
  taskToken := request.taskToken
  identity := request.identity
  namespace_ := request.namespace_
  intermediatePage := true
  rest := c.default

end Codec

def maxWftCompletionPageSize : Nat := 4 * 1024 * 1024 - 512 * 1024

/-- What is sent for a completion. -/
inductive WftCompletionPages (κ ρ : Type)
  | single (request : Request κ ρ)
  | paginated (intermediatePages : List (Request κ ρ)) (finalPage : Request κ ρ)
  deriving DecidableEq

/-- The variables of the loop over the commands. -/
structure Packing (κ ρ : Type) where
  intermediate : List (Request κ ρ) := []
  current : List κ := []
  currentLen : Nat := 0

def Packing.flush (template : Request κ ρ) (p : Packing κ ρ) : Packing κ ρ where
  intermediate := p.intermediate ++
    [{ template with commands := p.current, pageNumber := Int32.ofNat p.intermediate.length }]

def Packing.push (f : κ → Nat) (p : Packing κ ρ) (command : κ) : Packing κ ρ :=
  { p with currentLen := p.currentLen + f command, current := p.current ++ [command] }

def packCommand (f : κ → Nat) (template : Request κ ρ) (maxPageBytes : Nat) (p : Packing κ ρ) (command : κ) :
    Packing κ ρ :=
  if !p.current.isEmpty && decide (maxPageBytes < p.currentLen + f command) then (p.flush template).push f command
  else p.push f command

def paginateWftCompletion (c : Codec κ ρ) (request : Request κ ρ) (maxPageBytes : Nat) : WftCompletionPages κ ρ :=
  if c.encodedLen request ≤ maxPageBytes then .single request
  else if request.commands.isEmpty || request.commands.any (maxPageBytes < c.commandLen ·) then .single request
  else
    let template := c.intermediateTemplate request
    let p := request.commands.foldl (packCommand c.commandLen template maxPageBytes) {}
    let intermediate := if p.current.isEmpty then p.intermediate else (p.flush template).intermediate
    .paginated intermediate
      { request with commands := [], pageNumber := Int32.ofNat intermediate.length, intermediatePage := false }

section

variable {f : κ → Nat} {l l' : List κ} {limit : Nat}

theorem total_append : total f (l ++ l') = total f l + total f l' := by
  induction l with
  | nil => exact (Nat.zero_add _).symm
  | cons x xs ih => rw [List.cons_append, total, total, ih, Nat.add_assoc]

theorem le_total {x : κ} (hx : x ∈ l) : f x ≤ total f l := by
  induction l with
  | nil => cases hx
  | cons y ys ih =>
    rcases List.mem_cons.mp hx with rfl | hx
    · exact Nat.le_add_right ..
    · exact (ih hx).trans (Nat.le_add_left ..)

/-- The second group starts with a command that the first one has no room for. -/
def Full (f : κ → Nat) (limit : Nat) (a b : List κ) : Prop := ∀ x, b.head? = some x → limit < total f a + f x

/-- The page at index `i`: not empty, and within the limit. -/
def IsPage (f : κ → Nat) (template : Request κ ρ) (limit i : Nat) (page : Request κ ρ) : Prop :=
  page = { template with commands := page.commands, pageNumber := Int32.ofNat i } ∧ page.commands ≠ [] ∧
    total f page.commands ≤ limit

/-- What the loop has made of the commands that it has seen. -/
structure Packed (f : κ → Nat) (template : Request κ ρ) (limit : Nat) (seen : List κ) (p : Packing κ ρ) : Prop where
  concat : p.intermediate.flatMap (·.commands) ++ p.current = seen
  currentLen : p.currentLen = total f p.current
  fits : total f p.current ≤ limit
  begun : p.current = [] → p.intermediate = []
  pages : ∀ (i : Nat) page, p.intermediate[i]? = some page → IsPage f template limit i page
  full : (p.intermediate.map (·.commands) ++ [p.current]).IsChain (Full f limit)

variable {template : Request κ ρ} {seen : List κ} {p : Packing κ ρ} {command : κ}

theorem Packed.flush_pages (h : Packed f template limit seen p) (hne : p.current ≠ []) (i : Nat) (page : Request κ ρ)
    (hi : (p.flush template).intermediate[i]? = some page) : IsPage f template limit i page := by
  rw [Packing.flush, List.getElem?_append] at hi
  split at hi
  · exact h.pages i page hi
  · rw [List.getElem?_singleton, Option.ite_none_right_eq_some] at hi
    obtain ⟨hzero, ⟨⟩⟩ := hi
    obtain rfl : i = p.intermediate.length := by omega
    exact ⟨rfl, hne, h.fits⟩

theorem Packed.flush_concat (h : Packed f template limit seen p) :
    (p.flush template).intermediate.flatMap (·.commands) = seen := by
  simp [← h.concat, Packing.flush]

/-- A command that does not fit begins a page. -/
theorem Packed.flush_push (h : Packed f template limit seen p) (hne : p.current ≠ []) (hc : f command ≤ limit)
    (hover : limit < p.currentLen + f command) :
    Packed f template limit (seen ++ [command]) ((p.flush template).push f command) where
  concat := by simp [← h.concat, Packing.flush, Packing.push]
  currentLen := by simp [Packing.flush, Packing.push, total]
  fits := by simpa [Packing.flush, Packing.push, total] using hc
  begun hn := by simp [Packing.push] at hn
  pages := h.flush_pages hne
  full := by
    have : (p.intermediate.map (·.commands) ++ [p.current] ++ [[command]]).IsChain (Full f limit) := by
      refine List.isChain_append.mpr ⟨h.full, List.isChain_singleton _, ?_⟩
      intro a ha b hb
      obtain rfl : p.current = a := by simpa using ha
      obtain rfl : [command] = b := by simpa using hb
      rintro x ⟨⟩
      rwa [← h.currentLen]
    simpa [Packing.flush, Packing.push] using this

theorem Packed.push (h : Packed f template limit seen p) (hroom : p.currentLen + f command ≤ limit) :
    Packed f template limit (seen ++ [command]) (p.push f command) where
  concat := by simp [← h.concat, Packing.push]
  currentLen := by simp [Packing.push, total_append, total, h.currentLen]
  fits := by simpa [Packing.push, total_append, total, ← h.currentLen] using hroom
  begun hn := by simp [Packing.push] at hn
  pages := h.pages
  full := by
    have hfull := h.full
    by_cases hne : p.current = []
    · simp [Packing.push, h.begun hne]
    · rw [List.isChain_append] at hfull
      refine List.isChain_append.mpr ⟨hfull.1, List.isChain_singleton _, fun a ha b hb x hx => ?_⟩
      obtain rfl : p.current ++ [command] = b := by simpa [Packing.push] using hb
      exact hfull.2.2 a ha p.current (by simp) x (by rwa [List.head?_append_of_ne_nil _ hne] at hx)

theorem Packed.packCommand (h : Packed f template limit seen p) (hc : f command ≤ limit) :
    Packed f template limit (seen ++ [command]) (packCommand f template limit p command) := by
  unfold WftCompletion.packCommand
  split
  · next hif =>
    simp only [Bool.and_eq_true, Bool.not_eq_true', List.isEmpty_eq_false_iff, decide_eq_true_eq] at hif
    exact h.flush_push hif.1 hc hif.2
  · next hif =>
    by_cases hne : p.current = []
    · refine h.push ?_
      rw [h.currentLen, hne, total, Nat.zero_add]
      exact hc
    · simp [hne] at hif
      exact h.push hif

theorem Packed.foldl (hl : ∀ x ∈ l, f x ≤ limit) (h : Packed f template limit seen p) :
    Packed f template limit (seen ++ l) (l.foldl (WftCompletion.packCommand f template limit) p) := by
  induction l generalizing seen p with
  | nil => rwa [List.append_nil]
  | cons x xs ih =>
    have := ih (fun y hy => hl y (List.mem_cons_of_mem _ hy)) (h.packCommand (hl x List.mem_cons_self))
    rwa [List.append_assoc] at this

theorem Packed.start : Packed f template limit [] {} where
  concat := rfl
  currentLen := rfl
  fits := Nat.zero_le _
  begun _ := rfl
  pages i page hi := by cases hi
  full := List.isChain_singleton _

theorem Packed.current_ne_nil (h : Packed f template limit seen p) (hs : seen ≠ []) : p.current ≠ [] := by
  intro hn
  rw [← h.concat, hn, h.begun hn] at hs
  exact hs rfl

/-- Small numbers have short varints. -/
theorem encodedLenVarint_le {v k : Nat} (hv : v < Nat.pow 2 k) (hk : 0 < k) :
    encodedLenVarint v ≤ ((k - 1) * 9 + 73) / 64 := by
  have hne : v ||| 1 ≠ 0 := by simp [Nat.or_eq_zero_iff]
  have hlt := (Nat.log2_lt hne).mpr (Nat.or_lt_two_pow hv (Nat.one_lt_two_pow hk.ne'))
  unfold encodedLenVarint
  omega

/-- Tags and lengths take at most five bytes a command. -/
theorem total_framed_le (hl : ∀ x ∈ l, f x < Nat.pow 2 28) :
    total (fun x => 1 + encodedLenVarint (f x) + f x) l ≤ total f l + 5 * l.length := by
  induction l with
  | nil => exact Nat.le_refl _
  | cons x xs ih =>
    have := encodedLenVarint_le (hl x List.mem_cons_self) (by decide)
    have := ih fun y hy => hl y (List.mem_cons_of_mem _ hy)
    simp only [total, List.length_cons]
    omega

theorem bytesLen_le {n : Nat} (hn : n < Nat.pow 2 21) : bytesLen n ≤ n + 4 := by
  have := encodedLenVarint_le hn (by decide)
  unfold bytesLen
  split <;> omega

/-- A page of few commands with short names is encoded in little more than its commands are. -/
theorem encodedLen_page_le {c : Codec κ ρ} {request page : Request κ ρ} {i n : Nat}
    (hn : request.taskToken.length + request.identity.utf8ByteSize + request.namespace_.utf8ByteSize ≤ n)
    (hs : n < Nat.pow 2 21) (hl : limit < Nat.pow 2 28)
    (hp : IsPage c.commandLen (c.intermediateTemplate request) limit i page) :
    c.encodedLen page ≤ limit + 5 * page.commands.length + n + 27 := by
  obtain ⟨he, -, hfits⟩ := hp
  have hcommands := total_framed_le fun x (hx : x ∈ page.commands) => ((le_total hx).trans hfits).trans_lt hl
  have htoken := bytesLen_le (n := request.taskToken.length) (by omega)
  have hidentity := bytesLen_le (n := request.identity.utf8ByteSize) (by omega)
  have hnamespace := bytesLen_le (n := request.namespace_.utf8ByteSize) (by omega)
  have hnumber : (if Int32.ofNat i = 0 then 0
    else 2 + encodedLenVarint (Int32.ofNat i).toInt64.toUInt64.toNat) ≤ 12 := by
    have := encodedLenVarint_le (Int32.ofNat i).toInt64.toUInt64.toNat_lt (by decide)
    split <;> omega
  rw [he]
  simp only [Codec.encodedLen, Codec.intermediateTemplate, c.restLen_default, if_true]
  omega

end

/-- **The pages of a completion.** The limit leaves room for what the packing ignores. -/
theorem paginateWftCompletion_spec (c : Codec κ ρ) (request : Request κ ρ) (maxPageBytes : Nat) :
    ((∃ r, paginateWftCompletion c request maxPageBytes = .single r) ↔
      c.encodedLen request ≤ maxPageBytes ∨ request.commands = [] ∨
        ∃ x ∈ request.commands, maxPageBytes < c.commandLen x) ∧
    (∀ r, paginateWftCompletion c request maxPageBytes = .single r → r = request) ∧
    ∀ pages finalPage, paginateWftCompletion c request maxPageBytes = .paginated pages finalPage →
      pages.flatMap (·.commands) = request.commands ∧
      (∀ (i : Nat) page, pages[i]? = some page → page.pageNumber = Int32.ofNat i ∧ page.commands ≠ [] ∧
        total c.commandLen page.commands ≤ maxPageBytes) ∧
      (pages.map (·.commands)).IsChain (Full c.commandLen maxPageBytes) ∧
      finalPage =
        { request with commands := [], pageNumber := Int32.ofNat pages.length, intermediatePage := false } ∧
      (maxPageBytes = maxWftCompletionPageSize → request.commands.length ≤ 51200 →
        request.taskToken.length + request.identity.utf8ByteSize + request.namespace_.utf8ByteSize < 100 * 1024 →
        ∀ page ∈ pages, c.encodedLen page < 4 * 1024 * 1024) := by
  unfold paginateWftCompletion
  by_cases hfit : c.encodedLen request ≤ maxPageBytes
  · simp [hfit]
  by_cases hsplit : request.commands = [] ∨ ∃ x ∈ request.commands, maxPageBytes < c.commandLen x
  · have hif : (request.commands.isEmpty || request.commands.any (maxPageBytes < c.commandLen ·)) = true := by
      simpa using hsplit
    simp [hfit, hsplit, hif]
  have hif : ¬ (request.commands.isEmpty || request.commands.any (maxPageBytes < c.commandLen ·)) = true := by
    simpa using hsplit
  obtain ⟨hne, hsmall⟩ := not_or.mp hsplit
  have hpacked : Packed c.commandLen (c.intermediateTemplate request) maxPageBytes request.commands _ :=
    Packed.start.foldl fun x hx => Nat.le_of_not_lt fun hlt => hsmall ⟨x, hx, hlt⟩
  have hcurrent := hpacked.current_ne_nil hne
  simp only [if_neg hfit, if_neg hif, List.isEmpty_iff, if_neg hcurrent]
  refine ⟨by simp [hfit, hsplit], by simp, ?_⟩
  rintro _ _ ⟨⟩
  have hpages := hpacked.flush_pages hcurrent
  refine ⟨hpacked.flush_concat, fun i page hi => ?_, by simpa [Packing.flush] using hpacked.full, rfl, ?_⟩
  · obtain ⟨he, hfits⟩ := hpages i page hi
    exact ⟨by rw [he], hfits⟩
  · rintro rfl hlen hnames page hp
    obtain ⟨i, hi⟩ := List.getElem?_of_mem hp
    have hle := encodedLen_page_le (Nat.le_of_lt_succ hnames) (by decide) (by decide) (hpages i page hi)
    have hcount : page.commands.length ≤ request.commands.length := by
      rw [← hpacked.flush_concat]
      exact (List.sublist_flatten_of_mem (List.mem_map_of_mem hp)).length_le
    simp only [maxWftCompletionPageSize] at hle
    omega

/-- The final page of a request that is called an intermediate page is not. -/
theorem final_page_not_intermediate :
    let c : Codec Nat Unit := ⟨id, fun _ => 0, (), rfl⟩
    paginateWftCompletion c { commands := [1, 1], intermediatePage := true, rest := () } 1 =
      .paginated [{ commands := [1], intermediatePage := true, rest := () },
        { commands := [1], pageNumber := 1, intermediatePage := true, rest := () }]
        { pageNumber := 2, rest := () } := by
  decide

end SdkCore.WftCompletion
