import CodeArena.Seeds.Progress

/-!
# What is seeded

`SEED_USERS` and `SEED_PROBLEMS`.  Nothing in them gets in the way of anything else
(`seedScript_distinct`), and the schemas accept all of it (`seedScript_acceptable`).
-/

namespace CodeArena.Seeds

open CodeArena.Lib CodeArena.Lib.Utf
open CodeArena.Engine (trim isWhitespace)
open CodeArena.Api (Role Difficulty Visibility Example TestCaseData)
open CodeArena.Accounts (Auth isEmail)

/-- `SEED_USERS`. -/
def seedUsers : List SeedUser :=
  [{  name := js "CodeArena User"
      email := js "user@codearena.dev"
      password := js "User@12345"
      role := .user
      isActive := true },
    { name := js "CodeArena Admin"
      email := js "admin@codearena.dev"
      password := js "Admin@12345"
      role := .admin
      isActive := true }]

/-- An example of a problem. -/
def anExample (input output : String) : Example := ⟨js input, js output⟩

/-- A place in the order of the test cases. -/
def place (n : Nat) : Number := WithBot.some (WithTop.some (Rat.ofInt (Int.ofNat n)))

/-- A public test case. -/
def publicCase (order : Nat) (input expectedOutput : String) : TestCaseData :=
  ⟨js input, js expectedOutput, .pub, place order⟩

/-- A hidden test case. -/
def hiddenCase (order : Nat) (input expectedOutput : String) : TestCaseData :=
  ⟨js input, js expectedOutput, .hidden, place order⟩

/-! ## Easy problems -/

def sumOfTwoNumbers : SeedProblem where
  title := js "Sum of Two Numbers"
  description := js "Given two integers A and B, calculate and print their sum."
  difficulty := .easy
  tags := [js "arrays", js "math"]
  inputFormat := js "A single line containing two space-separated integers A and B."
  outputFormat := js "Print the sum of A and B on a single line."
  constraints := js "-10^9 <= A, B <= 10^9"
  examples := [anExample "2 3\n" "5\n", anExample "-10 20\n" "10\n"]
  testCases :=
    [publicCase 1 "2 3\n" "5\n",
      publicCase 2 "-10 20\n" "10\n",
      hiddenCase 3 "0 0\n" "0\n",
      hiddenCase 4 "1000000000 -1000000000\n" "0\n",
      hiddenCase 5 "500000000 500000000\n" "1000000000\n",
      hiddenCase 6 "-500000000 -500000000\n" "-1000000000\n"]

def maximumElementInAnArray : SeedProblem where
  title := js "Maximum Element in an Array"
  description := js ("Given an integer N followed by an array of N integers, find and print " ++
    "the maximum element in the array.")
  difficulty := .easy
  tags := [js "arrays", js "implementation"]
  inputFormat := js ("The first line contains an integer N, the number of elements in the " ++
    "array.\nThe second line contains N space-separated integers.")
  outputFormat := js "Print the maximum element on a single line."
  constraints := js "1 <= N <= 10^5\n-10^9 <= A[i] <= 10^9"
  examples := [anExample "5\n1 7 3 9 2\n" "9\n", anExample "4\n-5 -2 -10 -3\n" "-2\n"]
  testCases :=
    [publicCase 1 "5\n1 7 3 9 2\n" "9\n",
      publicCase 2 "4\n-5 -2 -10 -3\n" "-2\n",
      hiddenCase 3 "1\n42\n" "42\n",
      hiddenCase 4 "6\n-100 -50 -1000 -20 -1 -999\n" "-1\n",
      hiddenCase 5 "5\n10 10 10 10 10\n" "10\n",
      hiddenCase 6 "7\n100 200 50 800 300 800 150\n" "800\n"]

def countEvenNumbers : SeedProblem where
  title := js "Count Even Numbers"
  description := js ("Given an integer N followed by an array of N integers, count and print " ++
    "how many elements in the array are even numbers.")
  difficulty := .easy
  tags := [js "arrays", js "math"]
  inputFormat := js ("The first line contains an integer N.\nThe second line contains N " ++
    "space-separated integers.")
  outputFormat := js "Print the number of even integers in the array on a single line."
  constraints := js "1 <= N <= 10^5\n-10^9 <= A[i] <= 10^9"
  examples := [anExample "5\n1 2 3 4 5\n" "2\n", anExample "4\n2 4 6 8\n" "4\n"]
  testCases :=
    [publicCase 1 "5\n1 2 3 4 5\n" "2\n",
      publicCase 2 "4\n2 4 6 8\n" "4\n",
      hiddenCase 3 "4\n1 3 5 7\n" "0\n",
      hiddenCase 4 "1\n0\n" "1\n",
      hiddenCase 5 "6\n-2 -3 -4 0 5 8\n" "4\n",
      hiddenCase 6 "7\n-11 -13 -17 22 24 26 28\n" "4\n"]

def reverseAString : SeedProblem where
  title := js "Reverse a String"
  description := js "Given a string S, print the string in reverse order."
  difficulty := .easy
  tags := [js "strings", js "implementation"]
  inputFormat := js "A single line containing the string S."
  outputFormat := js "Print the reversed string on a single line."
  constraints := js "1 <= length of S <= 10^5\nS consists of printable ASCII characters."
  examples := [anExample "codearena\n" "aneraedoc\n", anExample "hello\n" "olleh\n"]
  testCases :=
    [publicCase 1 "codearena\n" "aneraedoc\n",
      publicCase 2 "hello\n" "olleh\n",
      hiddenCase 3 "a\n" "a\n",
      hiddenCase 4 "racecar\n" "racecar\n",
      hiddenCase 5 "1234567890\n" "0987654321\n",
      hiddenCase 6 "Algorithm\n" "mhtiroglA\n"]

/-! ## Medium problems -/

def secondLargestElement : SeedProblem where
  title := js "Second Largest Element"
  description := js ("Given an array of N integers, find the second largest distinct element " ++
    "in the array. If fewer than two distinct elements exist, print -1.")
  difficulty := .medium
  tags := [js "arrays", js "sorting"]
  inputFormat := js ("The first line contains an integer N.\nThe second line contains N " ++
    "space-separated integers.")
  outputFormat := js "Print the second largest distinct element, or -1 if no such element exists."
  constraints := js "1 <= N <= 10^5\n-10^9 <= A[i] <= 10^9"
  examples := [anExample "5\n12 35 1 10 34\n" "34\n", anExample "3\n10 10 10\n" "-1\n"]
  testCases :=
    [publicCase 1 "5\n12 35 1 10 34\n" "34\n",
      publicCase 2 "3\n10 10 10\n" "-1\n",
      hiddenCase 3 "1\n50\n" "-1\n",
      hiddenCase 4 "4\n-10 -20 -30 -40\n" "-20\n",
      hiddenCase 5 "6\n5 5 4 4 3 3\n" "4\n",
      hiddenCase 6 "7\n100 200 300 400 500 500 499\n" "499\n"]

def twoSum : SeedProblem where
  title := js "Two Sum"
  description := js ("Given an array of N integers and a target value T, determine whether " ++
    "there exist two distinct indices i and j (i != j) such that A[i] + A[j] == T. Print YES " ++
    "if such a pair exists, otherwise print NO.")
  difficulty := .medium
  tags := [js "arrays", js "hash-map"]
  inputFormat := js ("The first line contains two space-separated integers N and T.\nThe " ++
    "second line contains N space-separated integers.")
  outputFormat := js "Print YES if two distinct elements sum to T, otherwise print NO."
  constraints := js "2 <= N <= 10^5\n-10^9 <= A[i], T <= 10^9"
  examples := [anExample "4 9\n2 7 11 15\n" "YES\n", anExample "3 6\n3 1 4\n" "NO\n"]
  testCases :=
    [publicCase 1 "4 9\n2 7 11 15\n" "YES\n",
      publicCase 2 "3 6\n3 1 4\n" "NO\n",
      hiddenCase 3 "2 10\n5 5\n" "YES\n",
      hiddenCase 4 "4 0\n-5 2 5 1\n" "YES\n",
      hiddenCase 5 "5 100\n10 20 30 40 50\n" "NO\n",
      hiddenCase 6 "6 15\n1 2 4 7 11 15\n" "YES\n"]

def longestSubarrayWithGivenSum : SeedProblem where
  title := js "Longest Subarray With Given Sum"
  description := js ("Given an array of N integers and a target sum K, find the length of the " ++
    "longest contiguous subarray whose sum equals K. If no such subarray exists, print 0.")
  difficulty := .medium
  tags := [js "arrays", js "prefix-sum", js "sliding-window"]
  inputFormat := js ("The first line contains two integers N and K.\nThe second line contains " ++
    "N space-separated integers.")
  outputFormat := js "Print the length of the longest subarray with sum equal to K."
  constraints := js "1 <= N <= 10^5\n-10^9 <= A[i], K <= 10^9"
  examples := [anExample "6 15\n10 5 2 7 1 9\n" "4\n", anExample "3 5\n1 2 3\n" "2\n"]
  testCases :=
    [publicCase 1 "6 15\n10 5 2 7 1 9\n" "4\n",
      publicCase 2 "3 5\n1 2 3\n" "2\n",
      hiddenCase 3 "4 10\n1 2 3 4\n" "4\n",
      hiddenCase 4 "5 50\n1 2 3 4 5\n" "0\n",
      hiddenCase 5 "5 0\n1 -1 2 -2 3\n" "4\n",
      hiddenCase 6 "7 3\n-1 2 3 -2 1 1 -2\n" "6\n"]

def validParentheses : SeedProblem where
  title := js "Valid Parentheses"
  description := js ("Given a string S consisting of the characters \"(\", \")\", \"\x7b\", " ++
    "\"\x7d\", \"[\" and \"]\", determine if the input string is valid. A string is valid if " ++
    "open brackets are closed by the same type of brackets in the correct order, and every " ++
    "close bracket has a corresponding open bracket of the same type. Print YES if valid, " ++
    "otherwise print NO.")
  difficulty := .medium
  tags := [js "strings", js "stack"]
  inputFormat := js "A single line containing the bracket string S."
  outputFormat := js "Print YES if the brackets are balanced, otherwise print NO."
  constraints := js "1 <= length of S <= 10^5\nS consists only of \"()[]\x7b\x7d\"."
  examples := [anExample "()[]\x7b\x7d\n" "YES\n", anExample "(]\n" "NO\n"]
  testCases :=
    [publicCase 1 "()[]\x7b\x7d\n" "YES\n",
      publicCase 2 "(]\n" "NO\n",
      hiddenCase 3 "([\x7b\x7d])\n" "YES\n",
      hiddenCase 4 "([)]\n" "NO\n",
      hiddenCase 5 "(((((((()\n" "NO\n",
      hiddenCase 6 "\x7b[]()\x7d\n" "YES\n"]

/-! ## Hard problems -/

def longestIncreasingSubsequenceLength : SeedProblem where
  title := js "Longest Increasing Subsequence Length"
  description := js ("Given an array of N integers, find the length of the longest strictly " ++
    "increasing subsequence.")
  difficulty := .hard
  tags := [js "dynamic-programming", js "binary-search"]
  inputFormat := js ("The first line contains an integer N.\nThe second line contains N " ++
    "space-separated integers.")
  outputFormat := js "Print the length of the longest strictly increasing subsequence."
  constraints := js "1 <= N <= 2000\n-10^9 <= A[i] <= 10^9"
  examples := [anExample "8\n10 9 2 5 3 7 101 18\n" "4\n", anExample "6\n0 1 0 3 2 3\n" "4\n"]
  testCases :=
    [publicCase 1 "8\n10 9 2 5 3 7 101 18\n" "4\n",
      publicCase 2 "6\n0 1 0 3 2 3\n" "4\n",
      hiddenCase 3 "5\n5 4 3 2 1\n" "1\n",
      hiddenCase 4 "6\n7 7 7 7 7 7\n" "1\n",
      hiddenCase 5 "7\n1 2 3 4 5 6 7\n" "7\n",
      hiddenCase 6 "10\n0 -1 2 -2 3 4 -3 5 6 7\n" "7\n"]

def minimumPathSum : SeedProblem where
  title := js "Minimum Path Sum"
  description := js ("Given an M x N grid filled with non-negative integers, find a path from " ++
    "top-left cell (0, 0) to bottom-right cell (M-1, N-1) which minimizes the sum of all " ++
    "numbers along its path. You can only move either right or down at any point in time.")
  difficulty := .hard
  tags := [js "dynamic-programming", js "matrix"]
  inputFormat := js ("The first line contains two integers M and N, representing the rows and " ++
    "columns of the grid.\nThe next M lines each contain N space-separated non-negative " ++
    "integers.")
  outputFormat := js "Print the minimum path sum from (0, 0) to (M-1, N-1)."
  constraints := js "1 <= M, N <= 200\n0 <= Grid[i][j] <= 1000"
  examples := [anExample "3 3\n1 3 1\n1 5 1\n4 2 1\n" "7\n", anExample "2 3\n1 2 3\n4 5 6\n" "12\n"]
  testCases :=
    [publicCase 1 "3 3\n1 3 1\n1 5 1\n4 2 1\n" "7\n",
      publicCase 2 "2 3\n1 2 3\n4 5 6\n" "12\n",
      hiddenCase 3 "1 1\n5\n" "5\n",
      hiddenCase 4 "1 4\n1 2 3 4\n" "10\n",
      hiddenCase 5 "4 1\n2\n3\n5\n1\n" "11\n",
      hiddenCase 6 "3 4\n1 2 5 1\n1 8 1 2\n4 2 1 1\n" "10\n"]

def numberOfIslands : SeedProblem where
  title := js "Number of Islands"
  description := js ("Given an M x N 2D binary grid which represents a map of \"1\"s (land) " ++
    "and \"0\"s (water), return the number of islands. An island is surrounded by water and " ++
    "is formed by connecting adjacent lands horizontally or vertically (4-directional " ++
    "connectivity). You may assume all four edges of the grid are completely surrounded by " ++
    "water.")
  difficulty := .hard
  tags := [js "graphs", js "bfs", js "dfs", js "matrix"]
  inputFormat := js ("The first line contains two integers M and N, the number of rows and " ++
    "columns.\nThe next M lines each contain N space-separated integers (either 0 or 1).")
  outputFormat := js "Print the total number of islands on a single line."
  constraints := js "1 <= M, N <= 200\nGrid[i][j] is either 0 or 1."
  examples :=
    [anExample "4 5\n1 1 1 1 0\n1 1 0 1 0\n1 1 0 0 0\n0 0 0 0 0\n" "1\n",
      anExample "4 5\n1 1 0 0 0\n1 1 0 0 0\n0 0 1 0 0\n0 0 0 1 1\n" "3\n"]
  testCases :=
    [publicCase 1 "4 5\n1 1 1 1 0\n1 1 0 1 0\n1 1 0 0 0\n0 0 0 0 0\n" "1\n",
      publicCase 2 "4 5\n1 1 0 0 0\n1 1 0 0 0\n0 0 1 0 0\n0 0 0 1 1\n" "3\n",
      hiddenCase 3 "3 3\n0 0 0\n0 0 0\n0 0 0\n" "0\n",
      hiddenCase 4 "3 3\n1 1 1\n1 1 1\n1 1 1\n" "1\n",
      hiddenCase 5 "3 3\n1 0 1\n0 1 0\n1 0 1\n" "5\n",
      hiddenCase 6 "5 5\n1 0 0 0 1\n0 1 0 1 0\n0 0 1 0 0\n0 1 0 1 0\n1 0 0 0 1\n" "9\n"]

def shortestPathInAnUnweightedGraph : SeedProblem where
  title := js "Shortest Path in an Unweighted Graph"
  description := js ("Given an unweighted, undirected graph with V vertices (labeled 1 to V) " ++
    "and E edges, along with two vertices S (source) and D (destination), find the shortest " ++
    "number of edges in a path between S and D. If no path exists between S and D, print -1.")
  difficulty := .hard
  tags := [js "graphs", js "bfs", js "shortest-path"]
  inputFormat := js ("The first line contains two integers V and E.\nThe next E lines each " ++
    "contain two integers u and v, representing an undirected edge between vertex u and " ++
    "vertex v.\nThe last line contains two integers S and D, representing the source and " ++
    "destination vertices.")
  outputFormat := js "Print the minimum number of edges between S and D, or -1 if no path exists."
  constraints := js "1 <= V <= 10^5\n0 <= E <= 2 * 10^5\n1 <= u, v, S, D <= V"
  examples := [anExample "4 4\n1 2\n2 3\n3 4\n1 3\n1 4\n" "2\n", anExample "3 1\n1 2\n1 3\n" "-1\n"]
  testCases :=
    [publicCase 1 "4 4\n1 2\n2 3\n3 4\n1 3\n1 4\n" "2\n",
      publicCase 2 "3 1\n1 2\n1 3\n" "-1\n",
      hiddenCase 3 "3 2\n1 2\n2 3\n1 1\n" "0\n",
      hiddenCase 4 "5 4\n1 2\n2 3\n3 4\n4 5\n1 5\n" "4\n",
      hiddenCase 5 "5 5\n1 2\n2 3\n3 4\n4 5\n1 5\n1 5\n" "1\n",
      hiddenCase 6 "6 4\n1 2\n2 3\n4 5\n5 6\n1 6\n" "-1\n"]

/-- `SEED_PROBLEMS`. -/
def seedProblems : List SeedProblem :=
  [sumOfTwoNumbers, maximumElementInAnArray, countEvenNumbers, reverseAString,
    secondLargestElement, twoSum, longestSubarrayWithGivenSum, validParentheses,
    longestIncreasingSubsequenceLength, minimumPathSum, numberOfIslands,
    shortestPathInAnUnweightedGraph]

/-- The script. -/
def seedScript : Script := ⟨seedUsers, seedProblems⟩

/-! ## What the lists keep to -/

theorem seedProblems_titles : (seedProblems.map fun p ↦ trim p.title).Nodup := by
  decide +kernel

theorem seedProblems_orders :
    seedProblems.all (fun p ↦ decide (p.testCases.map (·.order)).Nodup) = true := by
  decide +kernel

/-- The two addresses are stored as they stand. -/
def PlainAddresses (auth : Auth) : Prop :=
  ∀ u ∈ seedUsers, auth.normalizeEmail u.email = u.email

/-- **Nothing in the lists gets in the way of anything else in them.** -/
theorem seedScript_distinct {auth : Auth} (h : PlainAddresses auth) :
    seedScript.Distinct auth where
  emails := by
    show (seedUsers.map fun u ↦ auth.normalizeEmail u.email).Nodup
    rw [List.map_congr_left h]
    decide +kernel
  titles := seedProblems_titles
  orders p hp := of_decide_eq_true (List.all_eq_true.mp seedProblems_orders p hp)

theorem seedUsers_accepted : seedUsers.all (fun u ↦ decide (trim u.name ≠ [] ∧
    (trim u.name).length ≤ 100 ∧ isEmail u.email = true ∧
      isEmail (trim u.email) = true)) = true := by
  decide +kernel

/-- There is something else than white space in a text. -/
def NotBlank (s : String) : Prop := ∃ u ∈ js s, isWhitespace u = false

/-! That a text is not blank can be seen at its front, without encoding all of it. -/

theorem notBlank_ofList {c : Char} (cs : List Char)
    (hc : ∃ u ∈ utf16EncodeChar c, isWhitespace u = false) : NotBlank (String.ofList (c :: cs)) := by
  obtain ⟨u, hu, hwhite⟩ := hc
  refine ⟨u, ?_, hwhite⟩
  rw [js, String.toList_ofList, utf16Encode_cons]
  exact List.mem_append_left _ hu

theorem NotBlank.append {s : String} (h : NotBlank s) (t : String) : NotBlank (s ++ t) := by
  obtain ⟨u, hu, hwhite⟩ := h
  refine ⟨u, ?_, hwhite⟩
  rw [js, String.toList_append, utf16Encode_append]
  exact List.mem_append_left _ hu

theorem NotBlank.trim_ne_nil {s : String} (h : NotBlank s) : trim (js s) ≠ [] := by
  obtain ⟨u, hu, hwhite⟩ := h
  exact Submissions.trim_ne_nil hu hwhite

/-- The texts of a problem that have to be there. -/
structure Written (p : SeedProblem) : Prop where
  title : trim p.title ≠ []
  description : trim p.description ≠ []
  inputFormat : trim p.inputFormat ≠ []
  outputFormat : trim p.outputFormat ≠ []
  constraints : trim p.constraints ≠ []

theorem written_mk {title description inputFormat outputFormat constraints : String}
    {difficulty : Difficulty} {tags : List JsString} {examples : List Example}
    {testCases : List TestCaseData} (htitle : NotBlank title) (hdescription : NotBlank description)
    (hinput : NotBlank inputFormat) (houtput : NotBlank outputFormat)
    (hconstraints : NotBlank constraints) :
    Written ⟨⟨js title, js description, difficulty, tags, js inputFormat, js outputFormat,
      js constraints, examples⟩, testCases⟩ where
  title := htitle.trim_ne_nil
  description := hdescription.trim_ne_nil
  inputFormat := hinput.trim_ne_nil
  outputFormat := houtput.trim_ne_nil
  constraints := hconstraints.trim_ne_nil

theorem seedProblems_written : ∀ p ∈ seedProblems, Written p := by
  simp only [seedProblems, List.forall_mem_cons, List.not_mem_nil, false_imp_iff, implies_true,
    and_true]
  and_intros
  all_goals
    apply written_mk <;> repeat with_reducible refine NotBlank.append ?_ _
  all_goals
    exact notBlank_ofList _ ⟨_, List.mem_cons_self, by decide⟩

theorem seedProblems_short :
    seedProblems.all (fun p ↦ decide ((trim p.title).length ≤ 200)) = true := by
  decide +kernel

theorem seedProblems_examples : seedProblems.all (fun p ↦ decide (p.examples ≠ [] ∧
    ∀ e ∈ p.examples, e.input ≠ [] ∧ e.output ≠ [])) = true := by
  decide +kernel

theorem seedProblems_accepted {p : SeedProblem} (hp : p ∈ seedProblems) : p.accepted = true := by
  have hwritten := seedProblems_written p hp
  have hshort := of_decide_eq_true (List.all_eq_true.mp seedProblems_short p hp)
  have hexamples := of_decide_eq_true (List.all_eq_true.mp seedProblems_examples p hp)
  exact decide_eq_true ⟨⟨hwritten.title, hshort, hwritten.description, hwritten.inputFormat,
    hwritten.outputFormat, hwritten.constraints⟩, hexamples⟩

/-- **The schemas accept what the lists say.** -/
theorem seedScript_acceptable {auth : Auth} (h : PlainAddresses auth) :
    seedScript.Acceptable auth where
  names u hu := by
    have hu := of_decide_eq_true (List.all_eq_true.mp seedUsers_accepted u hu)
    exact ⟨hu.1, hu.2.1⟩
  emails u hu := by
    rw [h u hu]
    exact (of_decide_eq_true (List.all_eq_true.mp seedUsers_accepted u hu)).2.2.1
  admin := ⟨_, List.mem_cons_of_mem _ List.mem_cons_self, rfl⟩
  problems _ hp := seedProblems_accepted hp

end CodeArena.Seeds
