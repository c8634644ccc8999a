import WatTypes.Proofs.Scanning

/-!
# A limit on nesting only adds its own faults

Reading a source under a limit on how deep parentheses nest meets what is met without a limit, and
one more fault in front of each opening parenthesis that brings the number of open ones above the
limit (`markDeep`, `readFrom_of_limit`). The parentheses are tokens all the same, so that under a
limit a source is read into the tokens into which it is read without one, provided that no prefix of
them leaves more parentheses open than the limit allows (`limit_adds_faults`).
-/

set_option autoImplicit false
set_option relaxedAutoImplicit false

namespace WatTypes

open Grammar Lexeme

/-! ### Faults in front of deep parentheses -/

namespace Event

/-- The number of open parentheses behind an event that is met with `depth` open ones. -/
def depthPast (depth : Nat) : Event → Nat
  | .token found =>
    if found.lexeme = .opening then depth + 1
    else if found.lexeme = .closing then depth - 1
    else depth
  | .fault _ _ => depth

/-- An event, and in front of it the fault that it nests too deep if it is a parenthesis that is
opened with as many open ones as are allowed. -/
def marked (greatest : Nat) (shown : String) (depth : Nat) : Event → List Event
  | .token found =>
    if found.lexeme = .opening ∧ depth = greatest then
      [.fault (.tooDeep shown) found.span.first, .token found]
    else [.token found]
  | event => [event]

/-- Events, and in front of each parenthesis that is opened with as many open ones as are allowed
the fault that it nests too deep. -/
def markDeep (greatest : Nat) (shown : String) (depth : Nat) : List Event → List Event
  | [] => []
  | event :: others =>
    event.marked greatest shown depth ++
      markDeep greatest shown (event.depthPast depth) others

section

variable {greatest depth : Nat} {shown file : String} {events : List Event}

/-- Behind events none of which is a parenthesis the number of open ones is the same. -/
theorem markDeep_append (others : List Event)
    (h : ∀ found, .token found ∈ events → found.lexeme.IsPlain) :
    markDeep greatest shown depth (events ++ others) =
      events ++ markDeep greatest shown depth others := by
  induction events with
  | nil => rfl
  | cons event behind ih =>
    have hevent : event.marked greatest shown depth = [event] ∧ event.depthPast depth = depth := by
      cases event with
      | fault cause position => exact ⟨rfl, rfl⟩
      | token found =>
        obtain ⟨hopening, hclosing, -⟩ := h found List.mem_cons_self
        constructor
        · exact if_neg fun hdeep ↦ hopening hdeep.1
        · rw [depthPast, if_neg hopening, if_neg hclosing]
    have hbehind := ih fun found hmem ↦ h found (List.mem_cons_of_mem event hmem)
    rw [List.cons_append, markDeep, hevent.1, hevent.2, hbehind]
    rfl

/-- Marking leaves the events as they are, and adds faults only. -/
theorem sublist_markDeep (greatest : Nat) (shown : String) (depth : Nat) (events : List Event) :
    List.Sublist events (markDeep greatest shown depth events) := by
  induction events generalizing depth with
  | nil => exact .refl []
  | cons event others ih =>
    have hevent : List.Sublist [event] (event.marked greatest shown depth) := by
      unfold marked
      split
      · split
        · exact List.sublist_cons_self _ _
        · exact .refl _
      · exact .refl _
    exact hevent.append (ih _)

/-- Marking adds no tokens. -/
theorem filterMap_token?_markDeep (greatest : Nat) (shown : String) (depth : Nat)
    (events : List Event) :
    (markDeep greatest shown depth events).filterMap token? = events.filterMap token? := by
  induction events generalizing depth with
  | nil => rfl
  | cons event others ih =>
    have hevent : (event.marked greatest shown depth).filterMap token? =
        [event].filterMap token? := by
      unfold marked
      split
      · split <;> rfl
      · rfl
    rw [markDeep, List.filterMap_append, hevent, ih, ← List.filterMap_append]
    rfl

end

end Event

open Event Scan

/-! ### Two runs in step -/

section Source

variable {file : String}

/-- Under a limit an opening parenthesis is marked. -/
theorem openingEvents_some (greatest : Nat) (shown : String) (depth : Nat) (start stop : Position) :
    openingEvents file (some ⟨greatest, shown⟩) (depth + 1) start stop =
      (Event.token ⟨.opening, .upTo file start stop⟩).marked greatest shown depth := by
  by_cases hdeep : depth = greatest
  · subst hdeep
    simp [openingEvents, marked, Span.upTo]
  · have hcount : ¬ ((depth + 1 : Nat) : Int) = greatest + 1 := by omega
    simp only [openingEvents, if_neg hcount, marked, hdeep, and_false, if_false]

/-- A closing parenthesis is never marked, and closes one if any is open. -/
theorem marked_closingEvent (file : String) (greatest : Nat) (shown : String) (depth : Nat)
    (start stop : Position) :
    (closingEvent file depth start stop).marked greatest shown depth =
        [closingEvent file depth start stop] ∧
      (closingEvent file depth start stop).depthPast depth = depth - 1 := by
  by_cases hopen : depth = 0
  · subst hopen
    exact ⟨rfl, rfl⟩
  · simp [closingEvent, hopen, marked, depthPast]

/-- Reading on under a limit meets what is met without it, and the faults of parentheses that nest
too deep. -/
theorem readFrom_of_limit (greatest : Nat) (shown : String) (depth : Nat) (here : Place) :
    readFrom file (some ⟨greatest, shown⟩) depth here =
      ⟨markDeep greatest shown depth (readFrom file none depth here).events,
        (readFrom file none depth here).stop⟩ := by
  fun_induction readFrom file (some ⟨greatest, shown⟩) depth here with
  | case1 depth here hrest =>
    rw [readFrom_of_nil hrest]
    unfold endEvents
    split <;> rfl
  | case2 depth here c rest hrest stop hread ih =>
    rw [readFrom_of_cons hrest, hread]
    exact ih
  | case3 depth here c rest hrest stop hread ih =>
    rw [readFrom_of_cons hrest, hread, ih, openingEvents_some]
    rfl
  | case4 depth here c rest hrest stop hread ih =>
    obtain ⟨hmarked, hpast⟩ :=
      marked_closingEvent file greatest shown depth here.position stop.position
    rw [readFrom_of_cons hrest, hread, ih]
    simp only [prepend, List.singleton_append, markDeep, hmarked, hpast]
  | case5 depth here c rest hrest events stop hread ih =>
    have hplain (found : Token) (hfound : .token found ∈ events) : found.lexeme.IsPlain :=
      (Stretch.lexeme_of_read hread hfound).1
    rw [readFrom_of_cons hrest, hread, ih]
    simp only [prepend, markDeep_append _ hplain]

/-- A token changes the number of open parentheses as its lexeme does. -/
theorem depthPast_of_depthPast? {limit : Option NestingLimit} {depth past : Nat} {found : Token}
    (h : depthPast? limit depth found.lexeme = some past) :
    (Event.token found).depthPast depth = past := by
  obtain ⟨lexeme, span⟩ := found
  cases lexeme with
  | opening => exact Option.some.inj (Option.ite_none_right_eq_some.mp h).2
  | closing => exact Option.some.inj (Option.ite_none_left_eq_some.mp h).2
  | _ => exact Option.some.inj h

section Fronts

variable {greatest depth past : Nat} {shown : String} {lexeme : Lexeme}

/-- Assumes: at most as many parentheses are open as are allowed. Behind a lexeme this is so too,
unless it opens one more than are allowed. -/
theorem past_le_iff (h : depthPast? none depth lexeme = some past) (hle : depth ≤ greatest) :
    past ≤ greatest ↔ ¬ (lexeme = .opening ∧ depth = greatest) := by
  have hcount := count_of_depthPast? h
  by_cases hopening : lexeme = .opening
  · subst hopening
    have hopened : [Lexeme.opening].count .opening = 1 := rfl
    have hclosed : [Lexeme.opening].count .closing = 0 := rfl
    simp only [true_and]
    omega
  · have hnone : [lexeme].count .opening = 0 :=
      List.count_eq_zero.mpr fun hmem ↦ hopening (List.mem_singleton.mp hmem).symm
    simp only [hopening, false_and, not_false_iff, iff_true]
    omega

/-- No prefix of lexemes leaves too many parentheses open if not too many are open in front of the
first one, and no prefix of those behind it leaves too many open. -/
theorem forall_isPrefix_cons_iff {others : List Lexeme}
    (h : depthPast? none depth lexeme = some past) :
    (∀ front, front <+: lexeme :: others →
        depth + front.count .opening ≤ front.count .closing + greatest) ↔
      depth ≤ greatest ∧ ∀ front, front <+: others →
        past + front.count .opening ≤ front.count .closing + greatest := by
  have hcount := count_of_depthPast? h
  have hcons (front : List Lexeme) (counted : Lexeme) :
      (lexeme :: front).count counted = [lexeme].count counted + front.count counted := by
    rw [← List.singleton_append, List.count_append]
  constructor
  · intro hfronts
    constructor
    · simpa using hfronts [] List.nil_prefix
    · intro front hfront
      have hwhole := hfronts (lexeme :: front) (List.cons_prefix_cons.mpr ⟨rfl, hfront⟩)
      rw [hcons front .opening, hcons front .closing] at hwhole
      omega
  · rintro ⟨hle, hfronts⟩ front hfront
    rcases List.prefix_cons_iff.mp hfront with rfl | ⟨rest, rfl, hrest⟩
    · simpa using hle
    · have hothers := hfronts rest hrest
      rw [hcons rest .opening, hcons rest .closing]
      omega

/-- Marking a token adds no fault if it does not open one parenthesis more than are allowed. -/
theorem diagnostics_marked_eq_nil_iff {found : Token} :
    ((Event.token found).marked greatest shown depth).filterMap (diagnostic? file) = [] ↔
      ¬ (found.lexeme = .opening ∧ depth = greatest) := by
  unfold marked
  by_cases hdeep : found.lexeme = .opening ∧ depth = greatest
  · simp [hdeep, diagnostic?]
  · simp [hdeep, diagnostic?]

/-- Assumes: tokens that no closing parenthesis leaves below no open ones, and as many open ones in
front of them as are allowed at most. Marking adds no fault if no prefix of the tokens leaves more
parentheses open than are allowed. -/
theorem diagnostics_markDeep_eq_nil_iff {behind : Nat} {tokens : List Token}
    (hdepth : depthBehind? none depth (lexemesOf tokens) = some behind) (hle : depth ≤ greatest) :
    (markDeep greatest shown depth (tokens.map .token)).filterMap (diagnostic? file) = [] ↔
      ∀ front, front <+: lexemesOf tokens →
        depth + front.count .opening ≤ front.count .closing + greatest := by
  induction tokens generalizing depth with
  | nil =>
    constructor
    · intro _ front hfront
      rw [List.prefix_nil.mp hfront]
      simpa using hle
    · exact fun _ ↦ rfl
  | cons found others ih =>
    rw [lexemesOf_cons, depthBehind?_cons] at hdepth
    obtain ⟨past, hpast, hbehind⟩ := Option.bind_eq_some_iff.mp hdepth
    rw [List.map_cons, markDeep, depthPast_of_depthPast? hpast, List.filterMap_append,
      List.append_eq_nil_iff, diagnostics_marked_eq_nil_iff, ← past_le_iff hpast hle,
      lexemesOf_cons, forall_isPrefix_cons_iff hpast]
    constructor
    · rintro ⟨hbound, hclean⟩
      exact ⟨hle, (ih hbehind hbound).mp hclean⟩
    · rintro ⟨-, hfronts⟩
      have hbound : past ≤ greatest := by simpa using hfronts [] List.nil_prefix
      exact ⟨hbound, (ih hbehind hbound).mpr hfronts⟩

end Fronts

end Source

/-! ### Whole sources -/

/-- Under a limit a source gives the tokens that it gives without one. -/
theorem tokens_of_limit (file source : String) (greatest : Nat) (shown : String) :
    (ofSource file (some ⟨greatest, shown⟩) source).tokens file =
      (ofSource file none source).tokens file := by
  unfold ofSource Scan.tokens
  rw [readFrom_of_limit, filterMap_token?_markDeep]

/-- Under a limit the diagnostics of a source are those without one, and those of the parentheses
that nest too deep. -/
theorem diagnostics_of_limit (file source : String) (greatest : Nat) (shown : String) :
    (ofSource file (some ⟨greatest, shown⟩) source).diagnostics file =
      (markDeep greatest shown 0 (ofSource file none source).events).filterMap
        (diagnostic? file) := by
  unfold ofSource Scan.diagnostics
  rw [readFrom_of_limit]

/-- A source is read under a limit if it is read without one, and no prefix of its tokens leaves
more parentheses open than are allowed. -/
theorem read_of_limit_iff {file source : String} {greatest : Nat} {shown : String}
    {tokens : TokenList} :
    TokenList.read file (some ⟨greatest, shown⟩) source = .ok tokens ↔
      TokenList.read file none source = .ok tokens ∧
        ∀ front, front <+: lexemesOf tokens.body →
          front.count .opening ≤ front.count .closing + greatest := by
  have hdiagnostics := diagnostics_of_limit file source greatest shown
  have hmarked (hread : TokenList.read file none source = .ok tokens) :
      (ofSource file (some ⟨greatest, shown⟩) source).diagnostics file = [] ↔
        ∀ front, front <+: lexemesOf tokens.body →
          front.count .opening ≤ front.count .closing + greatest := by
    obtain ⟨-, hdepth⟩ := scanned_of_read hread
    obtain ⟨hclean, rfl⟩ := read_eq_ok_iff.mp hread
    have htokens : (ofSource file none source).events =
        ((ofSource file none source).tokens file).body.map .token := map_token_of_diagnostic? hclean
    rw [hdiagnostics, htokens, diagnostics_markDeep_eq_nil_iff hdepth (Nat.zero_le greatest)]
    simp only [Nat.zero_add]
  constructor
  · intro hread
    obtain ⟨hclean, hsame⟩ := read_eq_ok_iff.mp hread
    rw [tokens_of_limit] at hsame
    have hfewer := (sublist_markDeep greatest shown 0
      (ofSource file none source).events).filterMap (diagnostic? file)
    rw [← hdiagnostics, hclean] at hfewer
    have hnone : TokenList.read file none source = .ok tokens :=
      read_eq_ok_iff.mpr ⟨List.eq_nil_of_sublist_nil hfewer, hsame⟩
    exact ⟨hnone, (hmarked hnone).mp hclean⟩
  · rintro ⟨hnone, hfronts⟩
    obtain ⟨-, hsame⟩ := read_eq_ok_iff.mp hnone
    refine read_eq_ok_iff.mpr ⟨(hmarked hnone).mpr hfronts, ?_⟩
    rw [tokens_of_limit, hsame]

/-- A limit on how deep parentheses nest only adds its own faults. Reading a source under it meets
what reading the source without it meets, and a fault in front of each opening parenthesis that
brings the number of open ones above the limit, and so it reports; it gives the same tokens. The
source is read under the limit if and only if it is read without one and no prefix of its tokens
leaves more parentheses open, and then it is read into the same tokens under every greater limit. -/
theorem limit_adds_faults (file source : String) (greatest : Nat) (shown : String) :
    (ofSource file (some ⟨greatest, shown⟩) source).events =
        markDeep greatest shown 0 (ofSource file none source).events ∧
      (ofSource file (some ⟨greatest, shown⟩) source).diagnostics file =
        (markDeep greatest shown 0 (ofSource file none source).events).filterMap
          (diagnostic? file) ∧
      (ofSource file (some ⟨greatest, shown⟩) source).tokens file =
        (ofSource file none source).tokens file ∧
      ∀ tokens,
        (TokenList.read file (some ⟨greatest, shown⟩) source = .ok tokens ↔
          TokenList.read file none source = .ok tokens ∧
            ∀ front, front <+: lexemesOf tokens.body →
              front.count .opening ≤ front.count .closing + greatest) ∧
        (TokenList.read file (some ⟨greatest, shown⟩) source = .ok tokens →
          ∀ (greater : Nat) (as : String), greatest ≤ greater →
            TokenList.read file (some ⟨greater, as⟩) source = .ok tokens) := by
  have hiff (bound : Nat) (as : String) (tokens : TokenList) :
      TokenList.read file (some ⟨bound, as⟩) source = .ok tokens ↔
        TokenList.read file none source = .ok tokens ∧
          ∀ front, front <+: lexemesOf tokens.body →
            front.count .opening ≤ front.count .closing + bound :=
    read_of_limit_iff
  have hevents : (ofSource file (some ⟨greatest, shown⟩) source).events =
      markDeep greatest shown 0 (ofSource file none source).events :=
    congrArg Scan.events (readFrom_of_limit greatest shown 0 (.start source))
  refine ⟨hevents, diagnostics_of_limit file source greatest shown,
    tokens_of_limit file source greatest shown, fun tokens ↦
      ⟨hiff greatest shown tokens, fun hread greater as hle ↦ ?_⟩⟩
  obtain ⟨hnone, hfronts⟩ := (hiff greatest shown tokens).mp hread
  refine (hiff greater as tokens).mpr ⟨hnone, fun front hfront ↦ ?_⟩
  have hbound := hfronts front hfront
  omega

/-- Two parentheses, one in the other, are read under a limit of two and any greater one, and not
under a limit of one. -/
theorem limit_adds_faults_nested :
    ∃ tokens, TokenList.read "" (some ⟨(2 : Nat), "2"⟩) "(())" = .ok tokens ∧
      TokenList.read "" (some ⟨(3 : Nat), "3"⟩) "(())" = .ok tokens ∧
      ∀ found, TokenList.read "" (some ⟨(1 : Nat), "1"⟩) "(())" ≠ .ok found := by
  have hclosing : Layout [.closing, .closing] [')', ')'] :=
    .lexeme .closing trivial (.lexeme .closing trivial .nil)
  have hinner : Layout [.opening, .closing, .closing] ['(', ')', ')'] :=
    .lexeme .opening (by simp [MayPrecede]) hclosing
  have houter : Layout (parenthesised (parenthesised [])) ['(', '(', ')', ')'] :=
    .lexeme .opening (by simp [MayPrecede]) hinner
  have hnests : Nests (some ⟨(2 : Nat), "2"⟩) 0 (parenthesised (parenthesised [])) := rfl
  have hread : ∃ tokens, TokenList.read "" (some ⟨(2 : Nat), "2"⟩) "(())" = .ok tokens ∧
      lexemesOf tokens.body = parenthesised (parenthesised []) := read_of_layout "" houter hnests
  obtain ⟨tokens, htokens, hlexemes⟩ := hread
  obtain ⟨-, -, -, hwithin⟩ := limit_adds_faults "" "(())" 2 "2"
  obtain ⟨-, -, -, hbelow⟩ := limit_adds_faults "" "(())" 1 "1"
  obtain ⟨hiff, hgreater⟩ := hwithin tokens
  refine ⟨tokens, htokens, hgreater htokens 3 "3" (by decide), fun found hfound ↦ ?_⟩
  obtain ⟨hnone, hfronts⟩ := (hbelow found).1.mp hfound
  obtain ⟨hsame, -⟩ := hiff.mp htokens
  rw [hnone, Except.ok.injEq] at hsame
  rw [hsame, hlexemes] at hfronts
  have hdeep := hfronts [.opening, .opening] (by decide)
  exact absurd hdeep (by decide)

end WatTypes
