import GlPrograms.Report

namespace GlPrograms.Transcript

/-- The fragment template is replaced first. -/
def shorten (text : String) : String :=
  (text.replace Source.fragmentTemplate "<FRAGMENT>").replace Source.vertexTemplate "<VERTEX>"

def blankAge (line : List Char) : List Char :=
  match (line.dropWhile (· ≠ '(')).dropWhile (· ≠ ')') with
  | [] => line
  | rest => line.takeWhile (· ≠ '(') ++ ['(', '*'] ++ rest

/-- The program lines of a report begin two lines after its title. -/
def blankLines (hidden : Nat → Bool) (text : String) : String :=
  match text.splitOn "\n" with
  | [] => text
  | columns :: lines =>
      "\n".intercalate <| columns :: lines.mapIdx fun i line =>
        if hidden i then String.ofList (blankAge line.toList) else line

/-- Replaces the age in the program lines that are hidden. The report is what follows the last
title; a text without a title holds no report. -/
def blankAges (hidden : Nat → Bool) (text : String) : String :=
  match (text.splitOn Report.title).reverse with
  | last :: front@(_ :: _) =>
      Report.title.intercalate (blankLines hidden last :: front).reverse
  | _ => text

end GlPrograms.Transcript
