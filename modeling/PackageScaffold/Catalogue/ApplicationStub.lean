import PackageScaffold.Catalogue.Line

/-!
# Application runners

The native runner of an application, one for each platform.
-/

namespace PackageScaffold.Catalogue

/-- The runner for Android. -/
def androidRunner : String :=
  lines [
    "package " ++ var "android_package",
    "",
    "import io.flutter.embedding.android.FlutterActivity",
    "",
    "class MainActivity : FlutterActivity()"
  ]

/-- The runner for iOS. -/
def iosRunner : String :=
  lines [
    "import Flutter",
    "import UIKit",
    "",
    "@main",
    "@objc class AppDelegate: FlutterAppDelegate \x7b",
    "  override func application(",
    "    _ application: UIApplication,",
    "    didFinishLaunchingWithOptions launchOptions: " ++
      "[UIApplication.LaunchOptionsKey: Any]?",
    "  ) -> Bool \x7b",
    "    GeneratedPluginRegistrant.register(with: self)",
    "    return super.application(application, didFinishLaunchingWithOptions: " ++
      "launchOptions)",
    "  \x7d",
    "\x7d"
  ]

/-- The runner for macOS. -/
def macosRunner : String :=
  lines [
    "import Cocoa",
    "import FlutterMacOS",
    "",
    "@main",
    "class AppDelegate: FlutterAppDelegate \x7b",
    "  override func applicationShouldTerminateAfterLastWindowClosed(_ sender: " ++
      "NSApplication) -> Bool \x7b",
    "    return true",
    "  \x7d",
    "\x7d"
  ]

/-- The page that starts the application in a browser. -/
def webRunner : String :=
  lines [
    "<!DOCTYPE html>",
    "<html>",
    "<head>",
    "  <base href=\"$FLUTTER_BASE_HREF\">",
    "  <meta charset=\"UTF-8\">",
    "  <meta name=\"description\" content=\"" ++ var "description" ++ "\">",
    "  <title>" ++ var "project_name" ++ "</title>",
    "  <link rel=\"manifest\" href=\"manifest.json\">",
    "</head>",
    "<body>",
    "  <script src=\"flutter_bootstrap.js\" async></script>",
    "</body>",
    "</html>"
  ]

/-- The runner for Windows. -/
def windowsRunner : String :=
  lines [
    "#include <flutter/dart_project.h>",
    "#include <flutter/flutter_view_controller.h>",
    "#include <windows.h>",
    "",
    "#include \"flutter_window.h\"",
    "",
    "int APIENTRY wWinMain(_In_ HINSTANCE instance, _In_opt_ HINSTANCE prev,",
    "                      _In_ wchar_t *command_line, _In_ int show_command) \x7b",
    "  flutter::DartProject project(L\"data\");",
    "  FlutterWindow window(project);",
    "  if (!window.Create(L\"" ++ var "project_name" ++ "\", Win32Window::Point(10, 10),",
    "                     Win32Window::Size(1280, 720))) \x7b",
    "    return EXIT_FAILURE;",
    "  \x7d",
    "  return EXIT_SUCCESS;",
    "\x7d"
  ]

/-- The runner for Linux. -/
def linuxRunner : String :=
  lines [
    "#include \"my_application.h\"",
    "",
    "int main(int argc, char** argv) \x7b",
    "  g_autoptr(MyApplication) app = my_application_new();",
    "  return g_application_run(G_APPLICATION(app), argc, argv);",
    "\x7d"
  ]

end PackageScaffold.Catalogue
