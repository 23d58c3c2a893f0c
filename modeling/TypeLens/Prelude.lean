import TypeLens.Check.Module
import TypeLens.Surface.Parse

/-!
The module that every other module imports unless it says otherwise.
-/

namespace TypeLens.Prelude

/-- The file that its spans name. -/
def file : String := "<prelude>/Prelude.hs"

def lines : List String := [
  "module Prelude",
  "",
  "-- The list type and its constructors ([] and :) are built in.",
  "",
  "data Int",
  "data String",
  "data Bool = False | True",
  "data Ordering = LT | EQ | GT",
  "data Maybe a = Nothing | Just a",
  "data Either a b = Left a | Right b",
  "",
  "infixr 9 .",
  "infixl 7 *",
  "infixl 6 +, -",
  "infixr 5 :, ++",
  "infix 4 ==, /=, <, <=, >, >=",
  "infixr 3 &&",
  "infixr 2 ||",
  "infixr 0 $",
  "",
  "class Eq a where",
  "  (==), (/=) :: a -> a -> Bool",
  "",
  "class Show a where",
  "  show :: a -> String",
  "",
  "primitive (+), (-), (*) :: Int -> Int -> Int",
  "primitive (<), (<=), (>), (>=) :: Int -> Int -> Bool",
  "primitive (++) :: String -> String -> String",
  "primitive primEqInt :: Int -> Int -> Bool",
  "primitive primEqString :: String -> String -> Bool",
  "primitive primShowInt :: Int -> String",
  "primitive primConcat :: [String] -> String",
  "primitive error :: String -> a",
  "primitive patError :: a",
  "primitive undefined :: a",
  "",
  "id :: a -> a",
  "id x = x",
  "",
  "const :: a -> b -> a",
  "const x _ = x",
  "",
  "(.) :: (b -> c) -> (a -> b) -> a -> c",
  "(.) f g = \\x -> f (g x)",
  "",
  "($) :: (a -> b) -> a -> b",
  "($) f x = f x",
  "",
  "not :: Bool -> Bool",
  "not True = False",
  "not False = True",
  "",
  "(&&) :: Bool -> Bool -> Bool",
  "(&&) True b = b",
  "(&&) False _ = False",
  "",
  "(||) :: Bool -> Bool -> Bool",
  "(||) True _ = True",
  "(||) False b = b",
  "",
  "map :: (a -> b) -> [a] -> [b]",
  "map _ [] = []",
  "map f (x : xs) = f x : map f xs",
  "",
  "length :: [a] -> Int",
  "length [] = 0",
  "length (_ : xs) = 1 + length xs",
  "",
  "maybe :: b -> (a -> b) -> Maybe a -> b",
  "maybe d _ Nothing = d",
  "maybe _ f (Just x) = f x",
  "",
  "either :: (a -> c) -> (b -> c) -> Either a b -> c",
  "either f _ (Left x) = f x",
  "either _ g (Right y) = g y",
  "",
  "instance Eq Int where",
  "  (==) = primEqInt",
  "  (/=) x y = not (primEqInt x y)",
  "",
  "instance Eq String where",
  "  (==) = primEqString",
  "  (/=) x y = not (primEqString x y)",
  "",
  "instance Eq Bool where",
  "  (==) a b = case a of \x7b True -> b; False -> not b \x7d",
  "  (/=) a b = not (a == b)",
  "",
  "instance Eq a => Eq [a] where",
  "  (==) xs ys = case xs of \x7b [] -> case ys of \x7b [] -> True; _"
    ++ " -> False \x7d; (x : xt) -> case ys of \x7b [] -> False; (y : yt) ->"
    ++ " x == y && xt == yt \x7d \x7d",
  "  (/=) xs ys = not (xs == ys)",
  "",
  "instance Show Int where",
  "  show = primShowInt",
  "",
  "instance Show String where",
  "  show s = \"\\\"\" ++ s ++ \"\\\"\"",
  "",
  "instance Show Bool where",
  "  show b = case b of \x7b True -> \"True\"; False -> \"False\" \x7d",
  "",
  "instance Show a => Show [a] where",
  "  show xs = \"[\" ++ primConcat (map show xs) ++ \"]\"",
  "",
  "instance Show a => Show (Maybe a) where",
  "  show m = case m of \x7b Nothing -> \"Nothing\"; Just x -> \"Just \" ++ show x \x7d"]

def source : String := "\n".intercalate lines ++ "\n"

/-- Its indentation is of blanks, so that no tab width changes it. -/
def parsed : Except Failure Surface.Module := Surface.parseModule 8 (some file) source

/-- The module checked against nothing. -/
def checked : Checked :=
  (Check.run (parsed.toOption.getD (.empty preludeModule)) []).checked

/-- What a session with a tab width has of it: it is read like any other file. -/
def read : Option Int → Except Failure Checked
  | none => .error (.missing .tabWidth)
  | some w => if Layout.isMeasurable w then .ok checked else .error .tabWidthOutOfRange

end TypeLens.Prelude
